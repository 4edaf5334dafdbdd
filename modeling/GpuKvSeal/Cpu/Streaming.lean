import GpuKvSeal.Cpu.Chunks
import GpuKvSeal.Cpu.Session

/-!
# The update loop over a working library

A library that implements GCM makes of the chunks what it would make of the
whole text, also where they end within a block.
-/

namespace GpuKvSeal.Cpu

open BigEndian (Byte)
open Device (Ptr advance advance_advance)
open Standard.Gcm (aes gctr inc32 preCounter)
open TracedState.Traced (Ensures)

/-- What an update loop does from a position on. -/
structure Worked (direction : Direction) (key : Vector Byte 16) (iv : Vector Byte 12)
    (tag fed : List Byte) (src dst : Ptr) (len done : Nat) (s : ProcessState)
    (rc : Int) (s' : ProcessState) : Prop where
  code : rc = 0
  session : session s'.history = .keyed direction key iv tag
    (fed ++ bytesAt s.memory (advance src done) (len - done))
  output : bytesAt s'.memory (advance dst done) (len - done) =
    streamed key iv fed (bytesAt s.memory (advance src done) (len - done))
  outside : ∀ q ∉ region (advance dst done) (len - done), s'.memory q = s.memory q

theorem updateAll_works {library : Library} {limit : Nat}
    (gcm : ImplementsGcm library limit)
    (direction : Direction) (errUpdate errProduced : Int) {src dst : Ptr} {len : Nat}
    (small : len < 2 ^ 64) (apart : Disjoint (region dst len) (region src len))
    (done : Nat) (s : ProcessState) {key : Vector Byte 16} {iv : Vector Byte 12}
    {tag fed : List Byte} (holds : session s.history = .keyed direction key iv tag fed)
    (total : fed.length + (len - done) ≤ limit) :
    (updateAll direction errUpdate errProduced src len dst done).Ensures library s
      fun rc s' _ => Worked direction key iv tag fed src dst len done s rc s' := by
  have size : INT_MAX = 2147483647 := rfl
  induction remaining : len - done using Nat.strongRecOn generalizing done s fed with
  | ind remaining ih =>
      rw [updateAll]
      refine Ensures.ite (fun more => ?_) fun none => ?_
      · let chunk := min (len - done) INT_MAX
        let later := len - (done + chunk)
        have split : len - done = chunk + later := by omega
        let input := bytesAt s.memory (advance src done) chunk
        have inputLength : input.length = chunk := length_bytesAt ..
        let r : Request :=
          .update direction (advance dst done) (advance src done) chunk
        let reply := library s.history (r.call s.memory)
        obtain ⟨rc, produced, output⟩ := gcm.update s.history direction key iv tag fed
          input holds (by omega) (by omega)
        have following : session (s.answered r reply).history =
            .keyed direction key iv tag (fed ++ input) := by
          have history : (s.answered r reply).history =
              s.history ++ [⟨.update direction input, 1⟩] := by
            rw [← rc]
            rfl
          rw [history, session_concat, holds]
          rfl
        have written : bytesAt (s.answered r reply).memory (advance dst done) chunk =
            streamed key iv fed input := by
          have fits : chunk ≤ 2 ^ 64 := by omega
          have length : (streamed key iv fed input).length = chunk := by
            rw [length_streamed, inputLength]
          refine bytesAt_fill s.memory (advance dst done) fits length fun i below => ?_
          exact output i (by omega)
        have outside : ∀ q ∉ region (advance dst done) chunk,
            (s.answered r reply).memory q = s.memory q := fun q out =>
          fill_outside out reply.output
        have rest : bytesAt (s.answered r reply).memory (advance src (done + chunk))
            later = bytesAt s.memory (advance src (done + chunk)) later := by
          refine bytesAt_congr fun q read => outside q fun hit => ?_
          exact Set.disjoint_left.mp apart (region_advance (by omega) hit)
            (region_advance (by omega) read)
        have data : bytesAt s.memory (advance src done) (len - done) =
            input ++ bytesAt s.memory (advance src (done + chunk)) later := by
          rw [split, bytesAt_add, advance_advance]
        refine Ensures.bind_eq (rfl : ask r library s =
          ⟨reply, s.answered r reply, [.ask r]⟩) ?_
        refine Ensures.ite (fun failed => absurd rc failed) fun _ => ?_
        refine Ensures.ite (fun short => absurd ?_ short) fun _ => ?_
        · exact produced.trans (congrArg _ inputLength)
        refine (ih _ (by omega) (done + chunk) (s.answered r reply) following
          (by rw [List.length_append]; omega) rfl).mono ?_
        intro rc s' steps worked
        refine ⟨worked.code, ?_, ?_, fun q out => ?_⟩
        · rw [worked.session, rest, data, List.append_assoc]
        · have first : bytesAt s'.memory (advance dst done) chunk =
              streamed key iv fed input := by
            rw [← written]
            refine bytesAt_congr fun q inside => worked.outside q fun hit => ?_
            exact Set.disjoint_left.mp (region_disjoint le_rfl (by omega)) inside hit
          rw [data, streamed_append, split, bytesAt_add, advance_advance, first,
            worked.output, rest]
        · rw [worked.outside q fun hit => out ?_, outside q fun hit => out ?_]
          · exact region_mono (by omega) hit
          · rw [← advance_advance] at hit
            exact region_advance (by omega) hit
      · have nothing : len - done = 0 := by omega
        refine Ensures.pure ⟨rfl, ?_, ?_, fun _ _ => rfl⟩
        · rw [holds, nothing]
          exact congrArg _ (List.append_nil fed).symm
        · rw [nothing]
          exact (List.eq_nil_of_length_eq_zero (length_streamed ..)).symm

/-- An update loop over a whole text, on a context that holds no data yet. -/
theorem updateAll_whole {library : Library} {limit : Nat}
    (gcm : ImplementsGcm library limit)
    (direction : Direction) (errUpdate errProduced : Int) {src dst : Ptr} {len : Nat}
    (small : len < 2 ^ 64) (admissible : len ≤ limit)
    (apart : Disjoint (region dst len) (region src len)) {s : ProcessState}
    {key : Vector Byte 16} {iv : Vector Byte 12} {tag text : List Byte}
    (holds : session s.history = .keyed direction key iv tag [])
    (content : bytesAt s.memory src len = text) :
    (updateAll direction errUpdate errProduced src len dst 0).Ensures library s
      fun rc s' _ => rc = 0 ∧
        session s'.history = .keyed direction key iv tag text ∧
        bytesAt s'.memory dst len = gctr (aes key) (inc32 (preCounter iv)) text ∧
        ∀ q ∉ region dst len, s'.memory q = s.memory q := by
  have total : ([] : List Byte).length + (len - 0) ≤ limit := by
    rw [List.length_nil]
    omega
  refine (updateAll_works gcm direction errUpdate errProduced small apart 0 s holds
    total).mono fun rc s' _ worked => ?_
  obtain ⟨code, history, output, outside⟩ := worked
  rw [Nat.sub_zero, bytesAt_advance_zero, content] at history
  rw [Nat.sub_zero, bytesAt_advance_zero, bytesAt_advance_zero, content, streamed_nil]
    at output
  rw [Nat.sub_zero, region_advance_zero] at outside
  exact ⟨code, history, output, outside⟩

end GpuKvSeal.Cpu
