import GpuKvSeal.Host.Api

/-!
# What the device makes of the events of one stream
-/

namespace GpuKvSeal.Host

open Device (Memory Schedule)

/-- The effect of one event on device memory.  Allocation and release move no
data. -/
def Event.apply (schedule : Schedule) (event : Event) (memory : Memory) :
    Memory :=
  match event with
  | .memcpyToSymbol device table =>
      memory.update (Device.Cell.sbox device) table
  | .memcpy dst bytes =>
      memory.update (Device.Cell.roundKeys dst) bytes
  | .launch _ l => l.run schedule memory
  | .synchronize | .malloc _ | .free _ => memory

/-- The memory after all events have taken effect in order. -/
def drain (schedule : Schedule) (events : List Event) (memory : Memory) :
    Memory :=
  events.foldl (fun current event => event.apply schedule current) memory

@[simp]
theorem drain_nil (schedule : Schedule) (memory : Memory) :
    drain schedule [] memory = memory := rfl

@[simp]
theorem drain_cons (schedule : Schedule) (event : Event) (rest : List Event)
    (memory : Memory) :
    drain schedule (event :: rest) memory =
      drain schedule rest (event.apply schedule memory) := rfl

theorem drain_append (schedule : Schedule) (first second : List Event)
    (memory : Memory) :
    drain schedule (first ++ second) memory =
      drain schedule second (drain schedule first memory) := by
  simp [drain, List.foldl_append]

end GpuKvSeal.Host
