import GpuKvSeal.Device.Footprints
import GpuKvSeal.Foundations.TracedState

/-!
# The process around the CPU backend

The CPU backend leaves all cryptography to the EVP interface.  What the library
answers to a call may depend on everything it was given before; it writes only
to the output buffer of a call, but there whatever it likes.
-/

namespace GpuKvSeal.Cpu

open BigEndian (Byte)
open Device (Ptr advance advance_inj)
open TracedState.Traced (Ensures)

/-! ## Bytes -/

/-- The bytes of the process. -/
abbrev Memory := Ptr → Byte

/-- The addresses of a buffer. -/
def region (p : Ptr) (n : Nat) : Set Ptr := {q | ∃ i < n, q = advance p i}

/-- The bytes of a buffer, in order. -/
def bytesAt (memory : Memory) (p : Ptr) (n : Nat) : List Byte :=
  (List.range n).map fun i => memory (advance p i)

/-- A buffer of a known size. -/
def vectorAt (memory : Memory) (p : Ptr) (n : Nat) : Vector Byte n :=
  Vector.ofFn fun i => memory (advance p i.val)

/-- The position of an address behind a pointer. -/
def offset (p q : Ptr) : Nat := (q + (2 ^ 64 - p % 2 ^ 64)) % 2 ^ 64

/-- Write some of the first `n` bytes behind a pointer. -/
def fill (memory : Memory) (p : Ptr) (n : Nat) (output : Nat → Option Byte) :
    Memory := fun q =>
  if q < 2 ^ 64 ∧ offset p q < n then (output (offset p q)).getD (memory q)
  else memory q

theorem advance_lt (p : Ptr) (i : Nat) : advance p i < 2 ^ 64 :=
  Nat.mod_lt _ (by decide)

theorem offset_advance {p i : Nat} (small : i < 2 ^ 64) :
    offset p (advance p i) = i := by
  show ((p + i) % 2 ^ 64 + (2 ^ 64 - p % 2 ^ 64)) % 2 ^ 64 = i
  omega

theorem advance_offset {p q : Nat} (address : q < 2 ^ 64) :
    advance p (offset p q) = q := by
  show (p + (q + (2 ^ 64 - p % 2 ^ 64)) % 2 ^ 64) % 2 ^ 64 = q
  omega

theorem mem_region {p : Ptr} {i n : Nat} (below : i < n) :
    advance p i ∈ region p n := ⟨i, below, rfl⟩

theorem region_mono {p : Ptr} {m n : Nat} (le : m ≤ n) :
    region p m ⊆ region p n := by
  rintro q ⟨i, below, rfl⟩
  exact mem_region (by omega)

/-- A part of a buffer. -/
theorem region_advance {p : Ptr} {start m n : Nat} (inside : start + m ≤ n) :
    region (advance p start) m ⊆ region p n := by
  rintro q ⟨i, below, rfl⟩
  rw [Device.advance_advance]
  exact mem_region (by omega)

theorem region_advance_zero (p : Ptr) (n : Nat) :
    region (advance p 0) n = region p n := by
  simp only [region, Device.advance_advance, Nat.zero_add]

@[simp]
theorem length_bytesAt (memory : Memory) (p : Ptr) (n : Nat) :
    (bytesAt memory p n).length = n := by
  simp [bytesAt]

theorem getElem?_bytesAt (memory : Memory) (p : Ptr) {i n : Nat} (below : i < n) :
    (bytesAt memory p n)[i]? = some (memory (advance p i)) := by
  simp [bytesAt, below]

theorem toList_vectorAt (memory : Memory) (p : Ptr) (n : Nat) :
    (vectorAt memory p n).toList = bytesAt memory p n := by
  refine List.ext_getElem? fun i => ?_
  by_cases below : i < n
  · rw [getElem?_bytesAt memory p below, Vector.getElem?_toList]
    simp [vectorAt, below]
  · rw [List.getElem?_eq_none (by simpa using below),
      List.getElem?_eq_none (by simpa using below)]

theorem bytesAt_congr {first second : Memory} {p : Ptr} {n : Nat}
    (same : ∀ q ∈ region p n, first q = second q) :
    bytesAt first p n = bytesAt second p n :=
  List.map_congr_left fun _ member =>
    same _ (mem_region (List.mem_range.mp member))

theorem vectorAt_congr {first second : Memory} {p : Ptr} {n : Nat}
    (same : ∀ q ∈ region p n, first q = second q) :
    vectorAt first p n = vectorAt second p n := by
  refine Vector.toList_inj.mp ?_
  rw [toList_vectorAt, toList_vectorAt, bytesAt_congr same]

theorem bytesAt_advance_zero (memory : Memory) (p : Ptr) (n : Nat) :
    bytesAt memory (advance p 0) n = bytesAt memory p n := by
  refine List.map_congr_left fun i _ => ?_
  rw [Device.advance_advance, Nat.zero_add]

/-- Consecutive buffers. -/
theorem bytesAt_add (memory : Memory) (p : Ptr) (m n : Nat) :
    bytesAt memory p (m + n) =
      bytesAt memory p m ++ bytesAt memory (advance p m) n := by
  simp only [bytesAt, List.range_add, List.map_append, List.map_map]
  congr 2
  funext i
  simp [Device.advance_advance]

@[simp]
theorem fill_zero (memory : Memory) (p : Ptr) (output : Nat → Option Byte) :
    fill memory p 0 output = memory := by
  funext q
  simp [fill]

theorem fill_inside (memory : Memory) (p : Ptr) {i n : Nat} (small : n ≤ 2 ^ 64)
    (below : i < n) (output : Nat → Option Byte) :
    fill memory p n output (advance p i) =
      (output i).getD (memory (advance p i)) := by
  have place : offset p (advance p i) = i := offset_advance (by omega)
  rw [fill, if_pos ⟨advance_lt p i, by omega⟩, place]

theorem fill_outside {memory : Memory} {p q : Ptr} {n : Nat}
    (outside : q ∉ region p n) (output : Nat → Option Byte) :
    fill memory p n output q = memory q := by
  refine if_neg fun inside => outside ?_
  exact ⟨offset p q, inside.2, (advance_offset inside.1).symm⟩

/-- A buffer that is filled completely. -/
theorem bytesAt_fill (memory : Memory) (p : Ptr) {n : Nat} (small : n ≤ 2 ^ 64)
    {bytes : List Byte} (length : bytes.length = n) {output : Nat → Option Byte}
    (all : ∀ i < n, output i = bytes[i]?) :
    bytesAt (fill memory p n output) p n = bytes := by
  refine List.ext_getElem? fun i => ?_
  by_cases below : i < n
  · rw [getElem?_bytesAt _ _ below, fill_inside memory p small below, all i below,
      List.getElem?_eq_getElem (length.symm ▸ below), Option.getD_some]
  · rw [List.getElem?_eq_none (by simpa using below),
      List.getElem?_eq_none (by omega)]

/-- Two parts of a buffer, one before the other. -/
theorem region_disjoint {p : Ptr} {first m second n : Nat} (before : first + m ≤ second)
    (small : second + n ≤ 2 ^ 64) :
    Disjoint (region (advance p first) m) (region (advance p second) n) := by
  refine Set.disjoint_left.mpr ?_
  rintro q ⟨i, below, rfl⟩ ⟨j, less, same⟩
  rw [Device.advance_advance, Device.advance_advance] at same
  have equal := advance_inj (by omega) (by omega) same
  omega

/-! ## The library -/

inductive Direction where
  | encrypt
  | decrypt
  deriving DecidableEq, Repr

/-- A call of the library, with the bytes it reads. -/
inductive Call where
  | reset
  | initCipher (direction : Direction)
  | setIvLen (n : Nat)
  | initKey (direction : Direction) (key : Vector Byte 16) (iv : Vector Byte 12)
  | setTag (tag : List Byte)
  | update (direction : Direction) (input : List Byte)
  | final (direction : Direction)
  | getTag (n : Nat)
  | randBytes (n : Nat)
  deriving DecidableEq, Repr

/-- The return value of a call, the length it reports and the bytes it writes. -/
structure Reply where
  rc : Int
  produced : Int
  output : Nat → Option Byte

/-- A call of the past and its return value. -/
structure Answered where
  call : Call
  rc : Int
  deriving DecidableEq, Repr

/-- Any behaviour that is determined by the calls so far. -/
abbrev Library := List Answered → Call → Reply

/-- A call as the backend makes it, with addresses. -/
inductive Request where
  | reset
  | initCipher (direction : Direction)
  | setIvLen (n : Nat)
  | initKey (direction : Direction) (key iv : Ptr)
  | setTag (n : Nat) (tag : Ptr)
  | update (direction : Direction) (out src : Ptr) (n : Nat)
  | final (direction : Direction) (out : Ptr)
  | getTag (n : Nat) (out : Ptr)
  | randBytes (out : Ptr) (n : Nat)
  deriving DecidableEq, Repr

namespace Request

/-- The call with the bytes at its addresses. -/
def call (memory : Memory) : Request → Call
  | .reset => .reset
  | .initCipher direction => .initCipher direction
  | .setIvLen n => .setIvLen n
  | .initKey direction key iv =>
      .initKey direction (vectorAt memory key 16) (vectorAt memory iv 12)
  | .setTag n tag => .setTag (bytesAt memory tag n)
  | .update direction _ src n => .update direction (bytesAt memory src n)
  | .final direction _ => .final direction
  | .getTag n _ => .getTag n
  | .randBytes _ n => .randBytes n

/-- The output buffer.  GCM has no final block, so `final` has no room in it. -/
def buffer : Request → Ptr × Nat
  | .update _ out _ n => (out, n)
  | .getTag n out => (out, n)
  | .randBytes out n => (out, n)
  | .final _ out => (out, 0)
  | .reset | .initCipher _ | .setIvLen _ | .initKey .. | .setTag .. => (0, 0)

/-- The addresses the library may read. -/
def reads : Request → Set Ptr
  | .initKey _ key iv => region key 16 ∪ region iv 12
  | .setTag n tag => region tag n
  | .update _ _ src n => region src n
  | .reset | .initCipher _ | .setIvLen _ | .final .. | .getTag .. |
    .randBytes .. => ∅

/-- The addresses the library may write. -/
def writes (r : Request) : Set Ptr := region r.buffer.1 r.buffer.2

end Request

/-! ## Computations -/

/-- What the backend does: bytes it touches itself, and requests. -/
inductive Step where
  | load (p : Ptr)
  | store (p : Ptr)
  | cleanse (p : Ptr) (n : Nat)
  | ask (r : Request)
  deriving DecidableEq, Repr

def Step.reads : Step → Set Ptr
  | .load p => {p}
  | .store _ | .cleanse .. => ∅
  | .ask r => r.reads

def Step.writes : Step → Set Ptr
  | .load _ => ∅
  | .store p => {p}
  | .cleanse p n => region p n
  | .ask r => r.writes

structure ProcessState where
  memory : Memory
  /-- The calls of the library so far, on this thread's context. -/
  history : List Answered
  /-- Whether the context of the thread could be allocated. -/
  hasContext : Bool

abbrev Process (α : Type) := TracedState.Traced Library ProcessState Step α

def loadByte (p : Ptr) : Process Byte := fun _ s => ⟨s.memory p, s, [.load p]⟩

def storeByte (p : Ptr) (value : Byte) : Process Unit := fun _ s =>
  ⟨(), { s with memory := Function.update s.memory p value }, [.store p]⟩

/-- `OPENSSL_cleanse`: the buffer is all zero afterwards. -/
def cleanse (p : Ptr) (n : Nat) : Process Unit := fun _ s =>
  ⟨(), { s with memory := fill s.memory p n fun _ => some 0#8 }, [.cleanse p n]⟩

def hasContext : Process Bool := fun _ s => ⟨s.hasContext, s, []⟩

/-- The state after a request was answered. -/
def ProcessState.answered (s : ProcessState) (r : Request) (reply : Reply) :
    ProcessState :=
  { s with
    memory := fill s.memory r.buffer.1 r.buffer.2 reply.output
    history := s.history ++ [⟨r.call s.memory, reply.rc⟩] }

/-- Make a call of the library. -/
def ask (r : Request) : Process Reply := fun library s =>
  let reply := library s.history (r.call s.memory)
  ⟨reply, s.answered r reply, [.ask r]⟩

/-- Make a call, and give up with an error code if it does not return one. -/
def require (r : Request) (err : Int) (rest : Process Int) : Process Int := do
  let reply ← ask r
  if reply.rc ≠ 1 then pure err else rest

theorem require_spec {library : Library} {s : ProcessState} {r : Request}
    {err : Int} {rest : Process Int} {post : Int → ProcessState → List Step → Prop}
    (failed : (library s.history (r.call s.memory)).rc ≠ 1 →
      post err (s.answered r (library s.history (r.call s.memory))) [.ask r])
    (continues : (library s.history (r.call s.memory)).rc = 1 →
      rest.Ensures library
        (s.answered r (library s.history (r.call s.memory)))
        fun value s' steps => post value s' (.ask r :: steps)) :
    (require r err rest).Ensures library s post := by
  refine Ensures.bind_eq rfl (Ensures.ite (fun bad => ?_) fun good => ?_)
  · exact Ensures.pure (failed bad)
  · exact continues (Decidable.not_not.mp good)

end GpuKvSeal.Cpu
