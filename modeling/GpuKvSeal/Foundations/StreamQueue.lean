import Mathlib

/-!
# Jobs on the streams of a device

A host hands jobs to streams and now and then waits until all of them have run.
The jobs of one stream run in the order in which they were handed over; jobs of
different streams run in any order.  Where jobs that may overtake each other
commute, every order has the outcome of the order of the host.
-/

namespace GpuKvSeal.StreamQueue

open Relation (ReflTransGen)

/-- What a host asks of a device. -/
inductive Request (Stream Job : Type) where
  | enqueue (stream : Stream) (job : Job)
  | wait

/-- The requests still to come, the jobs that were handed over and have not run,
the oldest first, and the jobs that have run, in their order. -/
structure Config (Stream Job : Type) where
  requests : List (Request Stream Job)
  pending : List (Stream × Job)
  ran : List Job

variable {Stream Job State : Type}

/-- The host makes its next request, or the device runs the oldest job of a
stream.  A wait is over when nothing is pending on any stream, whichever device
it belongs to. -/
inductive Step : Config Stream Job → Config Stream Job → Prop
  | enqueue (stream : Stream) (job : Job) (rest : List (Request Stream Job))
      (pending : List (Stream × Job)) (ran : List Job) :
      Step ⟨.enqueue stream job :: rest, pending, ran⟩
        ⟨rest, pending ++ [(stream, job)], ran⟩
  | wait (rest : List (Request Stream Job)) (ran : List Job) :
      Step ⟨.wait :: rest, [], ran⟩ ⟨rest, [], ran⟩
  | run {before : List (Stream × Job)} {stream : Stream}
      (oldest : ∀ entry ∈ before, entry.1 ≠ stream)
      (requests : List (Request Stream Job)) (job : Job)
      (after : List (Stream × Job)) (ran : List Job) :
      Step ⟨requests, before ++ (stream, job) :: after, ran⟩
        ⟨requests, before ++ after, ran ++ [job]⟩

/-- From an idle device the jobs of the requests may run in this order. -/
def Drains (requests : List (Request Stream Job)) (order : List Job) : Prop :=
  ReflTransGen Step ⟨requests, [], []⟩ ⟨[], [], order⟩

/-- The job a request hands over. -/
def Request.job : Request Stream Job → Option Job
  | .enqueue _ job => some job
  | .wait => none

/-- The jobs of the requests in the order of the host. -/
def jobs (requests : List (Request Stream Job)) : List Job :=
  requests.filterMap Request.job

@[simp]
theorem jobs_enqueue (stream : Stream) (job : Job)
    (rest : List (Request Stream Job)) :
    jobs (.enqueue stream job :: rest) = job :: jobs rest := rfl

@[simp]
theorem jobs_wait (rest : List (Request Stream Job)) :
    jobs (.wait :: rest) = jobs rest := rfl

theorem jobs_append (first second : List (Request Stream Job)) :
    jobs (first ++ second) = jobs first ++ jobs second := List.filterMap_append ..

@[simp]
theorem jobs_waits (n : Nat) :
    jobs (List.replicate n (.wait : Request Stream Job)) = [] := by
  induction n with
  | zero => rfl
  | succ n ih => exact ih

@[simp]
theorem jobs_enqueues (stream : Stream) (batch : List Job) :
    jobs (batch.map (Request.enqueue stream)) = batch := by
  induction batch with
  | nil => rfl
  | cons job rest ih => exact congrArg (job :: ·) ih

/-! ## Nothing is ever stuck -/

/-- From any configuration the device can run all that is pending and all that
is still to come. -/
theorem completes (requests : List (Request Stream Job)) :
    ∀ (pending : List (Stream × Job)) (ran : List Job),
      ReflTransGen Step ⟨requests, pending, ran⟩
        ⟨[], [], ran ++ (pending.map Prod.snd ++ jobs requests)⟩ := by
  -- The oldest job of all is the oldest of its stream.
  have runs : ∀ (requests : List (Request Stream Job))
      (pending : List (Stream × Job)) (ran : List Job),
      ReflTransGen Step ⟨requests, pending, ran⟩
        ⟨requests, [], ran ++ pending.map Prod.snd⟩ := by
    intro requests pending
    induction pending with
    | nil =>
        intro ran
        rw [List.map_nil, List.append_nil]
    | cons entry rest ih =>
        intro ran
        have first : Step ⟨requests, entry :: rest, ran⟩
            ⟨requests, rest, ran ++ [entry.2]⟩ :=
          @Step.run _ _ [] entry.1 (by simp) requests entry.2 rest ran
        have others := ih (ran ++ [entry.2])
        rw [List.append_assoc] at others
        exact .head first others
  induction requests with
  | nil =>
      intro pending ran
      have all := runs [] pending ran
      rwa [jobs, List.filterMap_nil, List.append_nil]
  | cons request rest ih =>
      intro pending ran
      cases request with
      | enqueue stream job =>
          have later := ih (pending ++ [(stream, job)]) ran
          rw [List.map_append, List.append_assoc] at later
          exact .head (.enqueue stream job rest pending ran) later
      | wait =>
          have later := ih [] (ran ++ pending.map Prod.snd)
          rw [List.map_nil, List.nil_append, List.append_assoc] at later
          exact (runs (.wait :: rest) pending ran).trans
            (.head (.wait rest _) later)

/-- Without requests nothing runs. -/
theorem Drains.of_nil {order : List Job}
    (drains : Drains ([] : List (Request Stream Job)) order) : order = [] := by
  cases drains.cases_head with
  | inl done =>
      cases done
      rfl
  | inr moved =>
      obtain ⟨config, step, -⟩ := moved
      generalize start : ([] : List (Stream × Job)) = pending at step
      cases step with
      | run oldest requests job after ran => simp at start

/-- The order of the host is one of the orders the device may choose. -/
theorem drains_jobs (requests : List (Request Stream Job)) :
    Drains requests (jobs requests) := completes requests [] []

/-! ## Jobs that may overtake each other -/

/-- The entries commute unless their stream orders them. -/
def Unordered (commute : Job → Job → Prop) (first second : Stream × Job) : Prop :=
  first.1 ≠ second.1 → commute first.2 second.2

/-- Every job handed over commutes with those of other streams that may still be
pending.  `recent` are the jobs since the last wait. -/
def Orderly (commute : Job → Job → Prop) :
    List (Stream × Job) → List (Request Stream Job) → Prop
  | _, [] => True
  | _, .wait :: rest => Orderly commute [] rest
  | recent, .enqueue stream job :: rest =>
      (∀ entry ∈ recent, Unordered commute entry (stream, job)) ∧
        Orderly commute (recent ++ [(stream, job)]) rest

/-- A wait orders all that came before it. -/
theorem Orderly.waits {commute : Job → Job → Prop} {recent : List (Stream × Job)}
    {n : Nat} {rest : List (Request Stream Job)}
    (orderly : Orderly commute (if n = 0 then recent else []) rest) :
    Orderly commute recent (List.replicate n .wait ++ rest) := by
  induction n generalizing recent with
  | zero => exact orderly
  | succ n ih =>
      rw [if_neg (Nat.succ_ne_zero n)] at orderly
      have none : Orderly commute [] (List.replicate n .wait ++ rest) :=
        ih (by rwa [ite_self])
      exact none

/-- Jobs of one stream have to commute only with those before them. -/
theorem Orderly.enqueues {commute : Job → Job → Prop}
    {recent : List (Stream × Job)} {stream : Stream} {batch : List Job}
    {rest : List (Request Stream Job)}
    (apart : ∀ job ∈ batch, ∀ entry ∈ recent,
      Unordered commute entry (stream, job))
    (orderly : Orderly commute (recent ++ batch.map (Prod.mk stream)) rest) :
    Orderly commute recent (batch.map (.enqueue stream) ++ rest) := by
  induction batch generalizing recent with
  | nil =>
      rw [List.map_nil, List.append_nil] at orderly
      exact orderly
  | cons job others ih =>
      refine ⟨apart job (List.mem_cons_self ..), ih ?_ ?_⟩
      · intro other member entry inside
        rcases List.mem_append.mp inside with old | new
        · exact apart other (List.mem_cons_of_mem _ member) entry old
        · rw [List.mem_singleton.mp new]
          exact fun different => absurd rfl different
      · rwa [List.append_assoc]

/-- Run jobs one after another. -/
def runJobs (act : Job → State → State) (order : List Job) (state : State) :
    State := order.foldl (fun current job => act job current) state

@[simp]
theorem runJobs_cons (act : Job → State → State) (job : Job) (rest : List Job)
    (state : State) :
    runJobs act (job :: rest) state = runJobs act rest (act job state) := rfl

theorem runJobs_append (act : Job → State → State) (first second : List Job)
    (state : State) :
    runJobs act (first ++ second) state =
      runJobs act second (runJobs act first state) := List.foldl_append ..

/-- A job that commutes with all jobs before it may run first. -/
theorem runJobs_overtake {act : Job → State → State} {job : Job}
    {before : List Job}
    (commutes : ∀ other ∈ before, ∀ state,
      act job (act other state) = act other (act job state)) (state : State) :
    act job (runJobs act before state) = runJobs act before (act job state) := by
  induction before generalizing state with
  | nil => rfl
  | cons other rest ih =>
      have here := commutes other (List.mem_cons_self ..) state
      have later := ih (fun j member => commutes j (List.mem_cons_of_mem _ member))
        (act other state)
      rw [here] at later
      exact later

section Order

variable {act : Job → State → State} {commute : Job → Job → Prop}
  (sound : ∀ first second, commute first second → ∀ state,
    act second (act first state) = act first (act second state))

/-- What is pending is part of what was handed over since the last wait, and the
rest of the requests is orderly. -/
structure Invariant (commute : Job → Job → Prop) (config : Config Stream Job) :
    Prop where
  orderly : ∃ recent, config.pending.Sublist recent ∧
    recent.Pairwise (Unordered commute) ∧ Orderly commute recent config.requests

theorem Invariant.step {config next : Config Stream Job}
    (invariant : Invariant commute config) (step : Step config next) :
    Invariant commute next := by
  obtain ⟨recent, inside, pairwise, orderly⟩ := invariant.orderly
  cases step with
  | enqueue stream job rest pending ran =>
      obtain ⟨apart, later⟩ := orderly
      refine ⟨recent ++ [(stream, job)], inside.append_right _, ?_, later⟩
      refine List.pairwise_append.mpr ⟨pairwise, List.pairwise_singleton _ _, ?_⟩
      intro entry member other last
      rw [List.mem_singleton.mp last]
      exact apart entry member
  | wait rest ran => exact ⟨[], List.Sublist.refl _, List.Pairwise.nil, orderly⟩
  | @run before stream oldest requests job after ran =>
      have fewer : (before ++ after).Sublist (before ++ (stream, job) :: after) :=
        (List.sublist_cons_self _ _).append_left before
      exact ⟨recent, fewer.trans inside, pairwise, orderly⟩

/-- All jobs of a configuration: those that ran, those pending and those to
come. -/
def Config.all (config : Config Stream Job) : List Job :=
  config.ran ++ (config.pending.map Prod.snd ++ jobs config.requests)

include sound in
/-- No step changes the outcome of running everything that is left in order. -/
theorem Step.runJobs_all {config next : Config Stream Job}
    (step : Step config next) (invariant : Invariant commute config)
    (state : State) :
    runJobs act next.all state = runJobs act config.all state := by
  cases step with
  | enqueue stream job rest pending ran =>
      simp only [Config.all, List.map_append, List.append_assoc]
      rfl
  | wait rest ran => rfl
  | @run before stream oldest requests job after ran =>
      obtain ⟨recent, inside, pairwise, -⟩ := invariant.orderly
      have apart := (List.pairwise_append.mp (pairwise.sublist inside)).2.2
      have commutes : ∀ other ∈ before.map Prod.snd, ∀ state,
          act job (act other state) = act other (act job state) := by
        intro other member state
        obtain ⟨entry, listed, rfl⟩ := List.mem_map.mp member
        exact sound _ _ (apart entry listed (stream, job)
          (List.mem_cons_self ..) (oldest entry listed)) state
      have overtakes := runJobs_overtake commutes (runJobs act ran state)
      simp only [Config.all, List.map_append, List.map_cons, runJobs_append,
        runJobs_cons, overtakes]
      rfl

include sound in
/-- Whatever order the device chooses, the outcome is that of the order of the
host. -/
theorem Drains.runJobs_eq {requests : List (Request Stream Job)}
    {order : List Job} (drains : Drains requests order)
    (orderly : Orderly commute [] requests) (state : State) :
    runJobs act order state = runJobs act (jobs requests) state := by
  have kept : ∀ config, ReflTransGen Step ⟨requests, [], []⟩ config →
      Invariant commute config ∧
        runJobs act config.all state = runJobs act (jobs requests) state := by
    intro config reached
    induction reached with
    | refl =>
        exact ⟨⟨[], List.Sublist.refl _, List.Pairwise.nil, orderly⟩, rfl⟩
    | tail _ step ih =>
        obtain ⟨invariant, same⟩ := ih
        have kept := step.runJobs_all sound invariant state
        exact ⟨invariant.step step, kept.trans same⟩
  have final := (kept _ drains).2
  rwa [Config.all, jobs, List.filterMap_nil, List.map_nil, List.append_nil,
    List.append_nil] at final

end Order

end GpuKvSeal.StreamQueue
