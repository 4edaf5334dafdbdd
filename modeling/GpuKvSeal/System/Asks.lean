import GpuKvSeal.Host.Lifecycle
import GpuKvSeal.System.Overlap

/-!
# What the calls of a program ask of the device when some of them fail

Allocations, copies and launches may fail at any time.  An operation then puts a
part of its launches on its stream, behind whatever was there; if it has grown
the workspace it has waited first.  A destruction waits for everything.
-/

namespace GpuKvSeal.System

open BigEndian (Byte)
open Device
open Host
open Refinement (tableCells)
open TracedState.Traced (Ensures)

/-- The calls that may not fail: releases, and those of the device guard. -/
abbrev cleanupCalls : Set RuntimeCall := {.free, .getDevice, .setDevice}

theorem cleanupCalls_free {driver : Driver} (reliable : driver.Succeeds cleanupCalls) :
    driver.Succeeds {.free} := fun kind member => reliable kind (Or.inl member)

theorem cleanupCalls_device {driver : Driver} (reliable : driver.Succeeds cleanupCalls) :
    driver.Succeeds {.getDevice, .setDevice} :=
  fun kind member => reliable kind (Or.inr member)

/-! ## Operations -/

/-- An operation that is not out of memory has released what it had, if it had a
workspace that was too small. -/
theorem guarded_frees {driver : Driver} (reliable : driver.Succeeds {.free})
    {s : HostState} {key : Ptr} {h : KeyHandle} {leaked : List Block}
    (accounted : Accounted s leaked) (live : s.handles.lookup key = some h)
    (equipped : 0 < h.nodeCapacity) {plaintextLen : Nat}
    (small : h.nodeCapacity < requiredNodes plaintextLen) (body : Cuda ReturnCode) :
    (guarded key plaintextLen body).Ensures driver s fun rc _ events =>
      rc = .errAlloc ∨ ∃ p, Event.free p ∈ events := by
  refine Ensures.bind_eq (readHandle_live driver live) ?_
  have inside := withDevice_spec driver s h.device
    (do
      let erc ← ensureWorkspace key plaintextLen
      if erc ≠ .ok then pure erc else body)
    (fun s₀ heap₀ _ _ _ _ => ?inside : ∀ s₀, SameHeap s s₀ → _ → _ → _ → _ →
      Ensures _ driver s₀ fun (rc : ReturnCode) _ (events : List Event) =>
        rc = .errAlloc ∨ ∃ p, Event.free p ∈ events)
  case inside =>
    have live₀ : s₀.handles.lookup key = some h := by
      rw [heap₀.handles]
      exact live
    have accounted₀ := accounted.sameHeap heap₀
    refine ((ensureWorkspace_waits reliable accounted₀ live₀ equipped small).and
      (ensureWorkspace_spec driver accounted₀ live₀ plaintextLen)).bind ?_
    rintro erc s₁ events₁ ⟨waits, effect⟩
    refine Ensures.ite (fun bad => Ensures.pure (Or.inl ?_)) fun ok => ?_
    · cases effect.result with
      | enough | grown => exact absurd rfl bad
      | failed => rfl
    · obtain ⟨p, released⟩ := waits (Decidable.not_not.mp ok)
      exact Or.inr ⟨p, List.mem_append_left _ released⟩
  refine inside.mono ?_
  rintro rc s' events ⟨_, frees, -⟩
  exact frees

/-- What an operation asks: it may release its nodes, which waits, and allocate
more, and then it enqueues part of its launches. -/
def Asks (s : HostState) (leaked : List Block) (c : ApiCall) (s' : HostState)
    (events : List Event) : Prop :=
  ∃ h h' before full launched, s.handles.lookup c.handle = some h ∧
    Accounted s' leaked ∧ Issued s s' c h h' before full ∧ launched.Sublist full ∧
    events = before ++ launchEvents (c.stream.getD 0) launched

/-- An operation on a handle, from what its body does. -/
theorem GuardedEffect.asks {driver : Driver} {s s' : HostState} {key : Ptr}
    {h : KeyHandle} {leaked : List Block} {plaintextLen : Nat}
    {body : HostState → KeyHandle → ReturnCode → HostState → List Event → Prop}
    {rc : ReturnCode} {events : List Event} {c : ApiCall} (handle : c.handle = key)
    (live : s.handles.lookup key = some h)
    (effect : GuardedEffect driver s s' key h leaked (requiredNodes plaintextLen)
      body rc events)
    (part : ∀ s₁ h' rc s₂ events, body s₁ h' rc s₂ events →
      (rc = .ok ∨ rc = .errCuda) ∧ ∃ launched,
        launched.Sublist (c.launches s₁.device h') ∧
          events = launchEvents (c.stream.getD 0) launched)
    (frees : 0 < h.nodeCapacity → h.nodeCapacity < requiredNodes plaintextLen →
      rc = .errAlloc ∨ ∃ p, Event.free p ∈ events)
    (reliable : driver.Succeeds cleanupCalls) : Asks s leaked c s' events := by
  subst handle
  obtain ⟨lost, accounted, exactly⟩ := effect.accounted
  rw [exactly (cleanupCalls_free reliable), List.nil_append] at accounted
  cases effect.result with
  | refused small handles error cause bookkeeping =>
      have issued : Issued s s' c h h events [] :=
        ⟨Extends.refl h, Updated.of_same live handles, bookkeeping,
          Or.inl ⟨rfl, rfl⟩, Or.inl rfl⟩
      exact ⟨h, h, events, [], [], live, accounted, issued, List.Sublist.refl _,
        (List.append_nil events).symm⟩
  | ran s₁ s₂ h' before after extends_ fits unchanged updated live' bookkeeping
      body _ _ _ clean =>
      obtain ⟨codes, launched, inside, rfl⟩ := part _ _ _ _ _ body
      have device : s₁.device = h.device := (clean fun kind member => by
        rcases member with rfl | rfl | rfl
        · exact cleanupCalls_device reliable .getDevice (Or.inl rfl)
        · exact cleanupCalls_device reliable .setDevice (Or.inr rfl)
        · exact cleanupCalls_free reliable .free rfl).2.1
      rw [device] at inside
      have positive := requiredNodes_pos plaintextLen
      refine ⟨h, h', before, c.launches h.device h', launched, live, accounted,
        ⟨extends_, updated, bookkeeping, ?_, Or.inr ⟨rfl, by omega⟩⟩, inside, rfl⟩
      by_cases enough : requiredNodes plaintextLen ≤ h.nodeCapacity
      · rw [(unchanged enough).1]
        exact Or.inl ⟨rfl, rfl⟩
      · refine Or.inr ((Nat.eq_zero_or_pos h.nodeCapacity).imp_right
          fun equipped => ?_)
        rcases frees equipped (by omega) with full | ⟨p, released⟩
        · rcases codes with rfl | rfl
          · cases full
          · cases full
        · refine ⟨p, (List.mem_append.mp released).resolve_right fun later => ?_⟩
          obtain ⟨l, -, same⟩ := List.mem_map.mp later
          cases same

theorem Pipe.launched {driver : Driver} {s s' : HostState} {stream : Ptr}
    {launches : List Launch} {events : List Event} {rc : ReturnCode}
    (pipe : Pipe driver s s' stream launches events)
    (code : rc = cudaRc s'.lastError) :
    (rc = .ok ∨ rc = .errCuda) ∧ ∃ launched, launched.Sublist launches ∧
      events = launchEvents stream launched :=
  ⟨code ▸ cudaRc_cases _, pipe.part⟩

/-- What any operation asks, unless it is refused. -/
theorem operation_asks {driver : Driver} (reliable : driver.Succeeds cleanupCalls)
    {s : HostState} {leaked : List Block} {c : ApiCall} (operation : c.Operation)
    (accounted : Accounted s leaked) (allowed : c.Allowed s) :
    c.perform.Ensures driver s fun _ s' events =>
      (events = [] ∧ s' = s) ∨ Asks s leaked c s' events := by
  have free := cleanupCalls_free reliable
  have found : c.handle ≠ 0 → ∃ h, s.handles.lookup c.handle = some h :=
    fun nonnull => Option.isSome_iff_exists.mp
      (AList.lookup_isSome.mpr (allowed.resolve_left nonnull))
  cases operation with
  | reserve key maxPlaintextLen =>
      by_cases null : key = 0
      · rw [ApiCall.perform, lmcacheGpuAes128gcmReserve, if_pos null]
        exact Ensures.pure (Or.inl ⟨rfl, rfl⟩)
      · obtain ⟨h, live⟩ := found null
        change s.handles.lookup key = some h at live
        have effect := lmcacheGpuAes128gcmReserve_spec driver accounted live null
          maxPlaintextLen
        have frees := fun equipped small =>
          guarded_frees free accounted live equipped
            (small : h.nodeCapacity < requiredNodes maxPlaintextLen) (pure .ok)
        rw [← lmcacheGpuAes128gcmReserve_eq key maxPlaintextLen null] at frees
        refine Or.inr (GuardedEffect.asks rfl live effect ?_ frees reliable)
        rintro s₁ h' rc s₂ events ⟨ok, nothing⟩
        exact ⟨Or.inl ok, [], List.Sublist.refl _, nothing⟩
  | @sealAsync key src dst plaintextLen admissible apart dstCapacity iv stream =>
      by_cases admits : iv.isSome ∧ SealAdmits key src plaintextLen dst dstCapacity
      · obtain ⟨given, admits⟩ := admits
        obtain ⟨iv, rfl⟩ := Option.isSome_iff_exists.mp given
        obtain ⟨h, live⟩ := found admits.key
        change s.handles.lookup key = some h at live
        have effect := lmcacheGpuAes128gcmSealAsync_spec driver accounted live admits
          iv stream
        have frees := fun (equipped : 0 < h.nodeCapacity)
            (small : h.nodeCapacity < requiredNodes plaintextLen) =>
          guarded_frees free accounted live equipped small
            (enqueueSeal key src plaintextLen dst iv stream)
        rw [← lmcacheGpuAes128gcmSealAsync_eq admits] at frees
        refine Or.inr (GuardedEffect.asks rfl live effect ?_ frees reliable)
        rintro s₁ h' rc s₂ events ⟨pipe, code, -⟩
        exact Pipe.launched pipe code
      · rw [ApiCall.perform, lmcacheGpuAes128gcmSealAsync_unadmitted admits]
        exact Ensures.pure (Or.inl ⟨rfl, rfl⟩)
  | @openAsync key src dst plaintextLen admissible apart frameLen authOk stream =>
      by_cases admits : OpenAdmits key src frameLen dst plaintextLen authOk
      · obtain ⟨h, live⟩ := found admits.key
        change s.handles.lookup key = some h at live
        have effect := lmcacheGpuAes128gcmOpenAsync_spec driver accounted live admits
          stream
        have frees := fun (equipped : 0 < h.nodeCapacity)
            (small : h.nodeCapacity < requiredNodes plaintextLen) =>
          guarded_frees free accounted live equipped small
            (enqueueOpen key src dst plaintextLen authOk stream)
        rw [← lmcacheGpuAes128gcmOpenAsync_eq admits] at frees
        refine Or.inr (GuardedEffect.asks rfl live effect ?_ frees reliable)
        rintro s₁ h' rc s₂ events ⟨pipe, code, -⟩
        exact Pipe.launched pipe code
      · rw [ApiCall.perform, lmcacheGpuAes128gcmOpenAsync_refused admits]
        exact Ensures.pure (Or.inl ⟨rfl, rfl⟩)

/-! ## Destructions -/

/-- Destroying a live key waits. -/
theorem keyDestroy_waits {driver : Driver} (reliable : driver.Succeeds {.free})
    {s : HostState} {key : Ptr} {h : KeyHandle} {leaked : List Block}
    (accounted : Accounted s leaked) (live : s.handles.lookup key = some h) :
    (lmcacheGpuAes128gcmKeyDestroy key).Ensures driver s fun _ _ events =>
      ∃ p, Event.free p ∈ events := by
  have nonnull : key ≠ 0 :=
    accounted.keys key (AList.lookup_isSome.mp (by rw [live]; rfl))
  rw [lmcacheGpuAes128gcmKeyDestroy, if_neg nonnull]
  refine Ensures.bind_eq (readHandle_live driver live) ?_
  have inside := withDevice_spec driver s h.device
    (do
      freeNodes h
      freeUnlessNull h.dHPow2
      freeUnlessNull h.dRoundKeys
      deleteHandle key
      pure .ok)
    (fun s₀ heap₀ _ _ _ _ => ?inside : ∀ s₀, SameHeap s s₀ → _ → _ → _ → _ →
      Ensures _ driver s₀ fun (_ : ReturnCode) _ (events : List Event) =>
        ∃ p, Event.free p ∈ events)
  case inside =>
    have holds := (accounted.split live).sameHeap heap₀
    have holds₀ : Holds s₀ (h.nodeBuffers ++ ((h.dHPow2, sizeofBlock128 * 64) ::
        (h.dRoundKeys, 176) :: (s.ownedExcept key ++ leaked))) := by
      refine holds.perm (List.perm_iff_count.mpr fun block => ?_)
      simp only [KeyHandle.buffers, KeyHandle.tables, List.count_append,
        List.count_cons, List.count_nil]
      omega
    refine (freeNodes_spec driver holds₀ (accounted.empty key h live)).bind ?_
    rintro - s₁ events₁ first
    obtain ⟨lost₁, holds₁, -⟩ := first.blocks
    have table : (h.dHPow2, sizeofBlock128 * 64) ∈ lost₁ ++
        ((h.dHPow2, sizeofBlock128 * 64) :: (h.dRoundKeys, 176) ::
          (s.ownedExcept key ++ leaked)) := by simp
    refine (freeUnlessNull_waits reliable (holds₁.nonnull _ table)
      (holds₁.live.mpr (List.mem_map_of_mem table))).bind ?_
    intro _ s₂ events₂ released
    refine Ensures.bind_eq rfl (Ensures.bind_eq rfl (Ensures.pure ⟨h.dHPow2, ?_⟩))
    exact List.mem_append_right _ (List.mem_append_left _ released)
  refine inside.mono ?_
  rintro rc s' events ⟨_, frees, -⟩
  exact frees

end GpuKvSeal.System
