import Mathlib

/-!
# Computations with a state, an environment and a trace

A computation reads an environment, changes a state and leaves a list of
events.  A postcondition speaks about the result, the final state and the
events; the rules below build it up along the structure of the computation,
so that no step of a long one is evaluated twice.
-/

namespace GpuKvSeal.TracedState

/-- The result of a computation. -/
structure Outcome (σ ε α : Type) where
  value : α
  state : σ
  events : List ε

/-- A computation over states `σ` with events `ε`. -/
def Traced (Env σ ε α : Type) := Env → σ → Outcome σ ε α

namespace Traced

variable {Env σ ε α β : Type}

instance : Monad (Traced Env σ ε) where
  pure value := fun _ state => ⟨value, state, []⟩
  bind first second := fun env state =>
    let before := first env state
    let after := second before.value env before.state
    ⟨after.value, after.state, before.events ++ after.events⟩

@[simp]
theorem pure_apply (value : α) (env : Env) (state : σ) :
    (pure value : Traced Env σ ε α) env state = ⟨value, state, []⟩ := rfl

@[simp]
theorem bind_apply (first : Traced Env σ ε α) (second : α → Traced Env σ ε β)
    (env : Env) (state : σ) :
    (first >>= second) env state =
      ⟨(second (first env state).value env (first env state).state).value,
        (second (first env state).value env (first env state).state).state,
        (first env state).events ++
          (second (first env state).value env (first env state).state).events⟩ :=
  rfl

/-- The outcome of a computation satisfies a postcondition. -/
def Ensures (program : Traced Env σ ε α) (env : Env) (state : σ)
    (post : α → σ → List ε → Prop) : Prop :=
  post (program env state).value (program env state).state
    (program env state).events

variable {env : Env} {state : σ}

theorem Ensures.pure {value : α} {post : α → σ → List ε → Prop}
    (holds : post value state []) :
    (Pure.pure value : Traced Env σ ε α).Ensures env state post := holds

/-- The rule of consequence. -/
theorem Ensures.mono {program : Traced Env σ ε α}
    {post post' : α → σ → List ε → Prop}
    (ensures : program.Ensures env state post)
    (implied : ∀ value state' events, post value state' events →
      post' value state' events) :
    program.Ensures env state post' := implied _ _ _ ensures

/-- The rule of composition: the second part starts where the first ends, and
its events follow those of the first. -/
theorem Ensures.bind {first : Traced Env σ ε α}
    {second : α → Traced Env σ ε β} {mid : α → σ → List ε → Prop}
    {post : β → σ → List ε → Prop} (ensures : first.Ensures env state mid)
    (continues : ∀ value state' events, mid value state' events →
      (second value).Ensures env state' fun result state'' events' =>
        post result state'' (events ++ events')) :
    (first >>= second).Ensures env state post :=
  continues _ _ _ ensures

/-- The rule of composition when the outcome of the first part is known. -/
theorem Ensures.bind_eq {first : Traced Env σ ε α}
    {second : α → Traced Env σ ε β} {post : β → σ → List ε → Prop}
    {value : α} {state' : σ} {events : List ε}
    (outcome : first env state = ⟨value, state', events⟩)
    (continues : (second value).Ensures env state' fun result state'' events' =>
      post result state'' (events ++ events')) :
    (first >>= second).Ensures env state post := by
  unfold Ensures
  rw [bind_apply, outcome]
  exact continues

/-- A first part that does nothing when it is repeated may be run ahead. -/
theorem Ensures.ahead {first : Traced Env σ ε α}
    {second : α → Traced Env σ ε β} {post : β → σ → List ε → Prop}
    {value : α} {state' : σ} {events : List ε}
    (once : first env state = ⟨value, state', events⟩)
    (again : first env state' = ⟨value, state', []⟩)
    (ensures : (first >>= second).Ensures env state'
      fun result state'' events' => post result state'' (events ++ events')) :
    (first >>= second).Ensures env state post := by
  refine Ensures.bind_eq once ?_
  unfold Ensures at ensures ⊢
  simpa only [bind_apply, again, List.nil_append] using ensures

theorem Ensures.of_eq {program : Traced Env σ ε α}
    {post : α → σ → List ε → Prop} {value : α} {state' : σ} {events : List ε}
    (outcome : program env state = ⟨value, state', events⟩)
    (holds : post value state' events) :
    program.Ensures env state post := by
  unfold Ensures
  rw [outcome]
  exact holds

theorem Ensures.and {program : Traced Env σ ε α}
    {post post' : α → σ → List ε → Prop}
    (left : program.Ensures env state post)
    (right : program.Ensures env state post') :
    program.Ensures env state fun value state' events =>
      post value state' events ∧ post' value state' events := ⟨left, right⟩

theorem Ensures.ite {test : Prop} [Decidable test]
    {yes no : Traced Env σ ε α} {post : α → σ → List ε → Prop}
    (whenTrue : test → yes.Ensures env state post)
    (whenFalse : ¬ test → no.Ensures env state post) :
    (if test then yes else no).Ensures env state post := by
  split
  · exact whenTrue ‹_›
  · exact whenFalse ‹_›

/-! ## What holds of every event -/

/-- Every event of the computation has a property, however it runs. -/
def Emits (P : ε → Prop) (program : Traced Env σ ε α) : Prop :=
  ∀ env state, ∀ event ∈ (program env state).events, P event

section Emits

variable {P : ε → Prop}

theorem Emits.of_silent {program : Traced Env σ ε α}
    (silent : ∀ env state, (program env state).events = []) :
    program.Emits P := by
  intro env state event member
  rw [silent] at member
  cases member

theorem Emits.pure (value : α) :
    (Pure.pure value : Traced Env σ ε α).Emits P := .of_silent fun _ _ => rfl

theorem Emits.bind {first : Traced Env σ ε α} {second : α → Traced Env σ ε β}
    (before : first.Emits P) (after : ∀ value, (second value).Emits P) :
    (first >>= second).Emits P := by
  intro env state event member
  rcases List.mem_append.mp member with early | late
  · exact before env state event early
  · exact after _ env _ event late

theorem Emits.ite {test : Prop} [Decidable test] {yes no : Traced Env σ ε α}
    (whenTrue : test → yes.Emits P) (whenFalse : ¬ test → no.Emits P) :
    (if test then yes else no).Emits P := by
  split
  · exact whenTrue ‹_›
  · exact whenFalse ‹_›

end Emits

end Traced

end GpuKvSeal.TracedState
