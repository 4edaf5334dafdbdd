import GpuKvSeal.Cpu.Api

/-!
# The chunks of an update

Data longer than an `int` is passed on in chunks.  The chunks cover the data
without gap or overlap, and an update loop makes one request for each of them
until one fails.
-/

namespace GpuKvSeal.Cpu

open BigEndian (Byte)
open Device (Ptr advance)
open TracedState.Traced (Ensures)

/-! ## Positions and sizes -/

/-- The chunks from a position on: their positions and sizes. -/
def chunks (len done : Nat) : List (Nat × Nat) :=
  if done < len then
    (done, min (len - done) INT_MAX) :: chunks len (done + min (len - done) INT_MAX)
  else []
termination_by len - done
decreasing_by
  have size : INT_MAX = 2147483647 := rfl
  omega

theorem chunks_cons {len done : Nat} (more : done < len) :
    chunks len done = (done, min (len - done) INT_MAX) ::
      chunks len (done + min (len - done) INT_MAX) := by
  rw [chunks, if_pos more]

theorem chunks_nil {len done : Nat} (none : len ≤ done) : chunks len done = [] := by
  rw [chunks, if_neg (by omega)]

/-- Every chunk lies in the text. -/
theorem chunks_inside (len done : Nat) : ∀ c ∈ chunks len done, c.1 + c.2 ≤ len := by
  have positive : 0 < INT_MAX := by decide
  induction rest : len - done using Nat.strongRecOn generalizing done with
  | ind remaining ih =>
      intro c member
      by_cases more : done < len
      · rw [chunks_cons more] at member
        cases member with
        | head =>
            show done + min (len - done) INT_MAX ≤ len
            omega
        | tail _ later => exact ih _ (by omega) _ rfl c later
      · rw [chunks_nil (by omega)] at member
        cases member

/-- The chunks of a text make up the text. -/
theorem flatMap_chunks (memory : Memory) (src : Ptr) (len done : Nat) :
    ((chunks len done).flatMap fun c => bytesAt memory (advance src c.1) c.2) =
      bytesAt memory (advance src done) (len - done) := by
  have positive : 0 < INT_MAX := by decide
  induction rest : len - done using Nat.strongRecOn generalizing done with
  | ind remaining ih =>
      by_cases more : done < len
      · have split : remaining = min (len - done) INT_MAX +
            (len - (done + min (len - done) INT_MAX)) := by omega
        rw [chunks_cons more, List.flatMap_cons, ih _ (by omega) _ rfl, split,
          bytesAt_add, Device.advance_advance]
      · have none : remaining = 0 := by omega
        rw [chunks_nil (by omega), none]
        rfl

/-- The number of chunks of `len` bytes. -/
def chunkCount (len : Nat) : Nat := (len + INT_MAX - 1) / INT_MAX

theorem chunkCount_zero : chunkCount 0 = 0 := by
  unfold chunkCount INT_MAX
  omega

/-- Chunk number `k` starts at `k` full chunks; all but the last are full. -/
theorem chunks_eq (len k : Nat) :
    chunks len (k * INT_MAX) =
      (List.range (chunkCount (len - k * INT_MAX))).map fun i =>
        ((k + i) * INT_MAX, min (len - (k + i) * INT_MAX) INT_MAX) := by
  induction rest : len - k * INT_MAX using Nat.strongRecOn generalizing k with
  | ind remaining ih =>
      have following : (k + 1) * INT_MAX = k * INT_MAX + INT_MAX :=
        Nat.succ_mul ..
      by_cases more : k * INT_MAX < len
      · have count : chunkCount remaining =
            chunkCount (len - (k + 1) * INT_MAX) + 1 := by
          unfold chunkCount INT_MAX at *
          omega
        rw [chunks_cons more, count, List.range_succ_eq_map, List.map_cons,
          List.map_map, Nat.add_zero]
        refine congrArg _ ?_
        by_cases full : INT_MAX ≤ len - k * INT_MAX
        · have next : k * INT_MAX + min (len - k * INT_MAX) INT_MAX =
              (k + 1) * INT_MAX := by omega
          have fewer : len - (k + 1) * INT_MAX < remaining := by
            have size : 0 < INT_MAX := by decide
            omega
          rw [next, ih _ fewer (k + 1) rfl]
          refine List.map_congr_left fun i _ => ?_
          have shift : k + 1 + i = k + (i + 1) := by omega
          simp only [Function.comp, shift, Nat.succ_eq_add_one]
        · have last : len - (k + 1) * INT_MAX = 0 := by
            rw [following, ← Nat.sub_sub]
            exact Nat.sub_eq_zero_of_le (Nat.le_of_not_le full)
          have done : len ≤ k * INT_MAX + min (len - k * INT_MAX) INT_MAX := by
            omega
          rw [chunks_nil done, last, chunkCount_zero, List.range_zero, List.map_nil]
      · have none : remaining = 0 := by omega
        rw [chunks_nil (by omega), none, chunkCount_zero, List.range_zero,
          List.map_nil]

/-- The sizes and positions of chunks that cover a text. -/
structure Tiles (len : Nat) (list : List (Nat × Nat)) : Prop where
  count : list.length = chunkCount len
  sizes : ∀ c ∈ list, 1 ≤ c.2 ∧ c.2 ≤ INT_MAX
  inside : ∀ c ∈ list, c.1 + c.2 ≤ len
  cover : ∀ i < len, ∃ k : Nat, ∃ c : Nat × Nat,
    list[k]? = some c ∧ c.1 ≤ i ∧ i < c.1 + c.2 ∧
      ∀ k' : Nat, ∀ c' : Nat × Nat,
        list[k']? = some c' → c'.1 ≤ i → i < c'.1 + c'.2 → k' = k

theorem chunks_getElem? {len k : Nat} {c : Nat × Nat}
    (found : (chunks len 0)[k]? = some c) :
    k < chunkCount len ∧
      c = (k * INT_MAX, min (len - k * INT_MAX) INT_MAX) := by
  have formula := chunks_eq len 0
  simp only [Nat.zero_mul, Nat.zero_add, Nat.sub_zero] at formula
  rw [formula, List.getElem?_map] at found
  by_cases below : k < chunkCount len
  · rw [List.getElem?_range below, Option.map_some, Option.some_inj] at found
    exact ⟨below, found.symm⟩
  · rw [List.getElem?_eq_none (by simpa using below)] at found
    cases found

theorem chunks_tiles (len : Nat) : Tiles len (chunks len 0) := by
  have formula := chunks_eq len 0
  simp only [Nat.zero_mul, Nat.zero_add, Nat.sub_zero] at formula
  have positions : ∀ c ∈ chunks len 0, ∃ k < chunkCount len,
      c = (k * INT_MAX, min (len - k * INT_MAX) INT_MAX) := by
    intro c member
    obtain ⟨k, found⟩ := List.mem_iff_getElem?.mp member
    exact ⟨k, chunks_getElem? found⟩
  refine ⟨?_, fun c member => ?_, fun c member => ?_, fun i below => ?_⟩
  · rw [formula, List.length_map, List.length_range]
  · obtain ⟨k, less, rfl⟩ := positions c member
    unfold chunkCount INT_MAX at *
    dsimp only
    omega
  · exact chunks_inside len 0 c member
  · have less : i / INT_MAX < chunkCount len := by
      unfold chunkCount INT_MAX
      omega
    refine ⟨i / INT_MAX, (i / INT_MAX * INT_MAX,
      min (len - i / INT_MAX * INT_MAX) INT_MAX), ?_, ?_, ?_,
      fun k' c' found lower upper => ?_⟩
    · rw [formula, List.getElem?_map, List.getElem?_range less, Option.map_some]
    · unfold INT_MAX
      dsimp only
      omega
    · unfold INT_MAX
      dsimp only
      omega
    · obtain ⟨less', rfl⟩ := chunks_getElem? found
      unfold INT_MAX at *
      dsimp only at lower upper
      omega

/-! ## The loop -/

/-- The request for one chunk. -/
def updateStep (direction : Direction) (src dst : Ptr) (c : Nat × Nat) : Step :=
  .ask (.update direction (advance dst c.1) (advance src c.1) c.2)

/-- What an update loop does from a position on. -/
structure Looped (direction : Direction) (errUpdate errProduced : Int)
    (src dst : Ptr) (len done : Nat) (s : ProcessState) (rc : Int)
    (s' : ProcessState) (steps : List Step) : Prop where
  memory : ∀ q ∉ region dst len, s'.memory q = s.memory q
  context : s'.hasContext = s.hasContext
  code : rc = 0 ∨ rc = errUpdate ∨ rc = errProduced
  steps : ∃ later, (chunks len done).map (updateStep direction src dst) =
    steps ++ later ∧ (rc = 0 → later = [])
  updates : ∃ later, s'.history = s.history ++ later ∧
    ∀ a ∈ later, ∃ input, a.call = .update direction input
  history : Disjoint (region dst len) (region src len) → rc = 0 →
    s'.history = s.history ++ (chunks len done).map fun c =>
      ⟨.update direction (bytesAt s.memory (advance src c.1) c.2), 1⟩

theorem updateAll_spec {library : Library} (direction : Direction)
    {errUpdate errProduced : Int} (updateNonzero : errUpdate ≠ 0)
    (producedNonzero : errProduced ≠ 0) (src dst : Ptr) (len done : Nat)
    (s : ProcessState) :
    (updateAll direction errUpdate errProduced src len dst done).Ensures library s
      (Looped direction errUpdate errProduced src dst len done s) := by
  have size : INT_MAX = 2147483647 := rfl
  induction remaining : len - done using Nat.strongRecOn generalizing done s with
  | ind remaining ih =>
      rw [updateAll]
      refine Ensures.ite (fun more => ?_) fun none => ?_
      · let chunk := min (len - done) INT_MAX
        have fits : done + chunk ≤ len := by omega
        let r : Request :=
          .update direction (advance dst done) (advance src done) chunk
        let reply := library s.history (r.call s.memory)
        have outside : ∀ q ∉ region dst len,
            (s.answered r reply).memory q = s.memory q := fun q out =>
          fill_outside (fun inside => out (region_advance fits inside)) _
        let answer : Answered := ⟨r.call s.memory, reply.rc⟩
        have asked : ∀ a ∈ [answer], ∃ input, a.call = .update direction input := by
          intro a member
          rw [List.mem_singleton.mp member]
          exact ⟨_, rfl⟩
        have listed := chunks_cons more
        refine Ensures.bind_eq (rfl : ask r library s =
          ⟨reply, s.answered r reply, [.ask r]⟩) ?_
        refine Ensures.ite (fun failed => ?_) fun answered => ?_
        · refine Ensures.pure ⟨outside, rfl, Or.inr (Or.inl rfl),
            ⟨(chunks len (done + chunk)).map (updateStep direction src dst), ?_, ?_⟩,
            ⟨[answer], rfl, asked⟩, ?_⟩
          · rw [listed, List.map_cons]
            rfl
          · exact fun zero => absurd zero updateNonzero
          · exact fun _ zero => absurd zero updateNonzero
        refine Ensures.ite (fun short => ?_) fun produced => ?_
        · refine Ensures.pure ⟨outside, rfl, Or.inr (Or.inr rfl),
            ⟨(chunks len (done + chunk)).map (updateStep direction src dst), ?_, ?_⟩,
            ⟨[answer], rfl, asked⟩, ?_⟩
          · rw [listed, List.map_cons]
            rfl
          · exact fun zero => absurd zero producedNonzero
          · exact fun _ zero => absurd zero producedNonzero
        · refine (ih _ (by omega) (done + chunk) (s.answered r reply) rfl).mono ?_
          intro rc s' steps looped
          obtain ⟨later, rest, all⟩ := looped.steps
          obtain ⟨answers, history, updates⟩ := looped.updates
          refine ⟨fun q out => (looped.memory q out).trans (outside q out),
            looped.context, looped.code, ⟨later, ?_, all⟩, ⟨answer :: answers, ?_, ?_⟩,
            fun apart zero => ?_⟩
          · rw [listed, List.map_cons, rest]
            rfl
          · rw [history, List.append_cons]
            rfl
          · exact List.forall_mem_cons.mpr ⟨asked _ List.mem_cons_self, updates⟩
          · have same : ∀ c ∈ chunks len (done + chunk),
                bytesAt (s.answered r reply).memory (advance src c.1) c.2 =
                  bytesAt s.memory (advance src c.1) c.2 := by
              intro c member
              have within := chunks_inside len (done + chunk) c member
              refine bytesAt_congr fun q inside => outside q fun written => ?_
              exact Set.disjoint_left.mp apart written
                (region_advance within inside)
            have rc : reply.rc = 1 := Decidable.not_not.mp answered
            have first : (s.answered r reply).history = s.history ++
                [⟨.update direction (bytesAt s.memory (advance src done) chunk),
                  1⟩] := by
              rw [← rc]
              rfl
            rw [looped.history apart zero, first, List.append_assoc, listed,
              List.map_cons, List.singleton_append]
            refine congrArg (s.history ++ _ :: ·) (List.map_congr_left ?_)
            intro c member
            rw [same c member]
      · have listed : chunks len done = [] := chunks_nil (by omega)
        refine Ensures.pure ⟨fun _ _ => rfl, rfl, Or.inl rfl, ⟨[], ?_, fun _ => rfl⟩,
          ⟨[], (List.append_nil _).symm, fun a member => ?_⟩, fun _ _ => ?_⟩
        · rw [listed]
          rfl
        · cases member
        · rw [listed]
          exact (List.append_nil _).symm

end GpuKvSeal.Cpu
