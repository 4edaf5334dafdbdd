import GpuKvSeal.Standard.Frame
import GpuKvSeal.System.Hash

/-!
# The launches of a seal and of an open compute the frame format

Each launch list is followed stage by stage.  What a stage needs from the
stages before it lies outside what the stages in between write.
-/

namespace GpuKvSeal.System

open BigEndian (Byte)
open Device
open Host
open Refinement
open Standard (FrameParts sealFrame openFrame)
open Standard.Gcm (aes authEncrypt authDecrypt gctr inc32 preCounter tag)

/-! ## Frames in memory -/

/-- The parts of the frame at an address. -/
def framePartsAt (memory : Memory) (frame : Ptr) (plaintextLen : Nat) :
    FrameParts where
  version := memory (.byte (advance frame 0))
  iv := bytesAt memory (advance frame 1) 12
  cipher := (bytesAt memory (advance frame HEADER_LEN) plaintextLen).toList
  tag := (bytesAt memory (tagAddress frame plaintextLen) 16).toList

theorem framePartsAt_tag (memory : Memory) (frame : Ptr) (plaintextLen : Nat) :
    (framePartsAt memory frame plaintextLen).tag =
      (bytesAt memory (tagAddress frame plaintextLen) 16).toList := by
  rw [framePartsAt]

theorem bytesAt_add (memory : Memory) (p : Ptr) (m n : Nat) :
    (bytesAt memory p (m + n)).toList =
      (bytesAt memory p m).toList ++ (bytesAt memory (advance p m) n).toList := by
  refine List.ext_getElem (by simp) fun i inside _ => ?_
  rw [List.getElem_append]
  simp only [Vector.length_toList, Vector.getElem_toList]
  rw [getElem_bytesAt]
  split
  · rw [getElem_bytesAt]
  · rename_i beyond
    have place : m + (i - m) = i := by omega
    rw [getElem_bytesAt, advance_advance, place]

theorem framePartsAt_bytes (memory : Memory) (frame : Ptr) (plaintextLen : Nat) :
    (framePartsAt memory frame plaintextLen).bytes =
      (bytesAt memory frame (plaintextLen + 29)).toList := by
  have split : plaintextLen + 29 = 1 + (12 + (plaintextLen + 16)) := by omega
  have first : (bytesAt memory frame 1).toList =
      [memory (.byte (advance frame 0))] := by
    rw [bytesAt, Vector.toList_ofFn, List.ofFn_succ, List.ofFn_zero]
    rfl
  rw [split, bytesAt_add, bytesAt_add, bytesAt_add, first]
  simp only [framePartsAt, FrameParts.bytes, tagAddress, advance_advance]

/-- Memories that agree on the bytes of a frame hold the same frame. -/
theorem framePartsAt_congr {first second : Memory} {frame : Ptr}
    {plaintextLen : Nat} (small : plaintextLen + 29 < 2 ^ 64)
    (same : ∀ cell ∈ frameBytes frame plaintextLen, first cell = second cell) :
    framePartsAt first frame plaintextLen =
      framePartsAt second frame plaintextLen := by
  have covered : coveredLen plaintextLen = plaintextLen :=
    coveredLen_eq (by omega)
  have header : ∀ k < 13,
      first (.byte (advance frame k)) = second (.byte (advance frame k)) :=
    fun k below => same _ (Or.inl (Or.inl (mem_span below)))
  have version := header 0 (by decide)
  have iv : bytesAt first (advance frame 1) 12 =
      bytesAt second (advance frame 1) 12 := bytesAt_congr fun k below => by
    rw [advance_advance]
    exact header _ (by omega)
  have cipher : bytesAt first (advance frame HEADER_LEN) plaintextLen =
      bytesAt second (advance frame HEADER_LEN) plaintextLen :=
    bytesAt_congr fun k below =>
      same _ (Or.inl (Or.inr (mem_span (by rwa [covered]))))
  have tag : bytesAt first (tagAddress frame plaintextLen) 16 =
      bytesAt second (tagAddress frame plaintextLen) 16 :=
    bytesAt_congr fun k below => same _ (Or.inr (mem_span below))
  rw [framePartsAt, framePartsAt, version, iv, cipher, tag]

/-! ## Stages -/

/-- The launches of the operations keep the tables of every key. -/
theorem ready_runAll {launches : List Launch}
    (operational : Operational launches) (schedule : Schedule)
    {key : Vector Byte 16} {memory : Memory} {device : Int}
    {roundKeys hPow2 : Ptr} (ready : Ready key memory device roundKeys hPow2) :
    Ready key (runAll schedule launches memory) device roundKeys hPow2 :=
  ready.congr fun _ table => runAll_frame schedule
    (fun l member write => operational_writes (operational l member) write
      (tableCells_isTable table)) memory

/-- The hash launches write no bytes and no status words. -/
theorem ghashLaunches_frame (schedule : Schedule) (device : Int)
    (handle : KeyHandle) (ciphertext : Ptr) (len : Nat) (memory : Memory)
    {cell : Cell} (other : ∀ p i, cell ≠ .node p i) :
    runAll schedule (ghashLaunches device handle ciphertext len) memory cell =
      memory cell := by
  refine runAll_frame schedule (fun l member write => ?_) memory
  obtain ⟨i, -, same | same⟩ :=
    (ghashLaunches_inside device handle ciphertext len l member).2 write
  · exact other _ _ same
  · exact other _ _ same

/-- The counter launch of an admissible text, at one of its positions. -/
theorem ctrLaunches_byte (schedule : Schedule) (device : Int) (src dst : Ptr)
    {len : Nat} (admissible : len ≤ 2 ^ 36 - 32) (iv roundKeys : Ptr)
    (authOk : Option Ptr) (memory : Memory)
    (apart : Disjoint (span dst len) (span src len ∪ span iv 12)) {pos : Nat}
    (below : pos < len) :
    runAll schedule (ctrLaunches device src dst len iv roundKeys authOk) memory
        (.byte (advance dst pos)) =
      if (authFailed authOk).value memory then 0#8
      else memory (.byte (advance src pos)) ^^^
        streamByte memory device iv roundKeys pos := by
  have blocks : blockCount len = (len + 15) / 16 := blockCount_eq (by omega)
  have some : blockCount len > 0 := by omega
  rw [ctrLaunches, if_pos some, runAll_cons, runAll_nil,
    ctrCrypt_run schedule device src dst iv roundKeys authOk _ memory (by omega)
      (castInt_covers (by decide) (by omega)) apart below (by omega),
    ctrResult]
  have counter : ¬ pos / 16 + 2 > 0xffffffff := by omega
  rw [if_neg counter]

/-- Without a text there is no counter launch, so outside the text nothing
changes. -/
theorem ctrLaunches_frame (schedule : Schedule) (device : Int) (src dst : Ptr)
    {len : Nat} (small : len + 15 < 2 ^ 64) (iv roundKeys : Ptr)
    (authOk : Option Ptr) (memory : Memory) {cell : Cell}
    (outside : cell ∉ span dst len) :
    runAll schedule (ctrLaunches device src dst len iv roundKeys authOk) memory
      cell = memory cell := by
  refine runAll_frame schedule (fun l member write => outside ?_) memory
  have written := (ctrLaunches_inside device src dst (by omega) iv roundKeys
    authOk l member).2 write
  rwa [coveredLen_eq small] at written

/-- The hash and the last launch of a seal store the tag of the ciphertext in
memory. -/
theorem finalize_stage (schedule : Schedule) {key : Vector Byte 16}
    {memory : Memory} {device : Int} {handle : KeyHandle}
    (ready : Ready key memory device handle.dRoundKeys handle.dHPow2)
    (distinct : handle.dNodesA ≠ handle.dNodesB) {plaintextLen : Nat}
    (admissible : plaintextLen ≤ 2 ^ 36 - 32) (frame : Ptr) :
    let after := runAll schedule (ghashLaunches device handle
      (advance frame HEADER_LEN) plaintextLen ++
        [⟨device, .finalizeTag frame plaintextLen handle.dRoundKeys
          (ghashRoot handle plaintextLen), 1, 1⟩]) memory
    (bytesAt after (tagAddress frame plaintextLen) 16).toList =
        tag (aes key) (bytesAt memory (advance frame 1) 12) []
          (bytesAt memory (advance frame HEADER_LEN) plaintextLen).toList ∧
      ∀ p, Cell.byte p ∉ span (tagAddress frame plaintextLen) 16 →
        after (.byte p) = memory (.byte p) := by
  intro after
  let final : Launch := ⟨device, .finalizeTag frame plaintextLen handle.dRoundKeys
    (ghashRoot handle plaintextLen), 1, 1⟩
  let hashed := runAll schedule (ghashLaunches device handle
    (advance frame HEADER_LEN) plaintextLen) memory
  have stages : after = final.run schedule hashed := runAll_append ..
  have bytes : ∀ p, hashed (.byte p) = memory (.byte p) := fun p =>
    ghashLaunches_frame schedule device handle _ plaintextLen memory
      fun _ _ => by simp
  have ready' : Ready key hashed device handle.dRoundKeys handle.dHPow2 :=
    ready_runAll (ghashLaunches_operational device handle _ plaintextLen) schedule
      ready
  have root := ghashLaunches_root schedule device handle
    (advance frame HEADER_LEN) (admissible.trans (by decide)) memory ready.powers
    distinct
  rw [hashTerms_eq memory _ (by omega)] at root
  have iv : bytesAt hashed (advance frame 1) 12 =
      bytesAt memory (advance frame 1) 12 := bytesAt_congr fun k _ => bytes _
  rw [stages]
  constructor
  · rw [← iv, ← ready'.expectedBytes_eq frame _ root]
    refine congrArg Vector.toList (Vector.ext fun i inside => ?_)
    rw [getElem_bytesAt]
    exact finalizeTag_run schedule device frame plaintextLen _ _ hashed
      ⟨i, inside⟩
  · intro p outside
    rw [← bytes]
    exact final.run_frame schedule hashed fun ⟨_, _, write⟩ => outside write

/-- The hash and the check of an open store whether the frame in memory has the
version and the tag of this format. -/
theorem verify_stage (schedule : Schedule) {key : Vector Byte 16}
    {memory : Memory} {device : Int} {handle : KeyHandle}
    (ready : Ready key memory device handle.dRoundKeys handle.dHPow2)
    (distinct : handle.dNodesA ≠ handle.dNodesB) {plaintextLen : Nat}
    (short : plaintextLen ≤ 2 ^ 43) (frame authOk : Ptr) :
    let after := runAll schedule (ghashLaunches device handle
      (advance frame HEADER_LEN) plaintextLen ++
        [verifyLaunch device handle frame plaintextLen authOk]) memory
    let f := framePartsAt memory frame plaintextLen
    after (.flag authOk) =
        (if f.version = 0x01#8 ∧ tag (aes key) f.iv [] f.cipher = f.tag then 1
          else 0) ∧
      ∀ p, after (.byte p) = memory (.byte p) := by
  intro after f
  let check := verifyLaunch device handle frame plaintextLen authOk
  let hashed := runAll schedule (ghashLaunches device handle
    (advance frame HEADER_LEN) plaintextLen) memory
  have stages : after = check.run schedule hashed := runAll_append ..
  have bytes : ∀ p, hashed (.byte p) = memory (.byte p) := fun p =>
    ghashLaunches_frame schedule device handle _ plaintextLen memory
      fun _ _ => by simp
  have ready' : Ready key hashed device handle.dRoundKeys handle.dHPow2 :=
    ready_runAll (ghashLaunches_operational device handle _ plaintextLen) schedule
      ready
  have root := ghashLaunches_root schedule device handle
    (advance frame HEADER_LEN) short memory ready.powers distinct
  rw [hashTerms_eq memory _ (by omega)] at root
  have iv : bytesAt hashed (advance frame 1) 12 = f.iv :=
    bytesAt_congr fun k _ => bytes _
  have kept : bytesAt hashed (tagAddress frame plaintextLen) 16 =
      bytesAt memory (tagAddress frame plaintextLen) 16 :=
    bytesAt_congr fun k _ => bytes _
  have stored : (bytesAt hashed (tagAddress frame plaintextLen) 16).toList =
      f.tag := by
    rw [kept, framePartsAt_tag]
  have expected := ready'.expectedBytes_eq frame _ root
  rw [stages]
  constructor
  · refine (verifyTag_run schedule device frame plaintextLen _ _ authOk
      hashed).trans (if_congr (and_congr ?_ ?_) rfl rfl)
    · rw [bytes]
      exact Iff.rfl
    · rw [← Vector.toList_inj, expected, iv, stored]
      exact Iff.rfl
  · intro p
    rw [← bytes]
    exact check.run_frame schedule hashed fun ⟨_, _, write⟩ => by cases write

/-- With the tables in place the counter launch applies counter mode to the
text, or clears the output when the check has failed. -/
theorem counter_stage (schedule : Schedule) {key : Vector Byte 16}
    {memory : Memory} {device : Int} {roundKeys hPow2 : Ptr}
    (ready : Ready key memory device roundKeys hPow2) (src dst : Ptr) {len : Nat}
    (admissible : len ≤ 2 ^ 36 - 32) (iv : Ptr) (authOk : Option Ptr)
    (apart : Disjoint (span dst len) (span src len ∪ span iv 12)) :
    (bytesAt (runAll schedule
        (ctrLaunches device src dst len iv roundKeys authOk) memory) dst
        len).toList =
      if (authFailed authOk).value memory then List.replicate len 0#8
      else gctr (aes key) (inc32 (preCounter (bytesAt memory iv 12)))
        (bytesAt memory src len).toList := by
  have byte := fun (i : Nat) (inside : i < len) => ctrLaunches_byte schedule
    device src dst admissible iv roundKeys authOk memory apart inside
  by_cases failed : (authFailed authOk).value memory = true
  · rw [if_pos failed]
    refine List.ext_getElem (by simp) fun i inside _ => ?_
    have below : i < len := by simpa using inside
    rw [Vector.getElem_toList, getElem_bytesAt, byte i below, if_pos failed,
      List.getElem_replicate]
  · rw [if_neg failed, Standard.Gcm.inc32_preCounter]
    refine List.ext_getElem (by simp) fun i inside _ => ?_
    have below : i < len := by simpa using inside
    rw [Vector.getElem_toList, getElem_bytesAt, byte i below, if_neg failed,
      Standard.Gcm.getElem_gctr _ _ 2 _ _ (by simpa using below),
      Vector.getElem_toList, getElem_bytesAt, ready.streamByte_eq]

/-- With the gate closed the counter launch clears the text, as long as the cast leaves
its grid as it is. -/
theorem counter_closed (schedule : Schedule) (device : Int) (src dst : Ptr)
    {len : Nat} (short : len ≤ 2 ^ 43 - 4096) (iv roundKeys : Ptr)
    {authOk : Ptr} {memory : Memory} (closed : memory (.flag authOk) = 0) :
    bytesAt (runAll schedule (ctrLaunches device src dst len iv roundKeys
      (some authOk)) memory) dst len = Vector.replicate len 0#8 := by
  have failed : (authFailed (some authOk)).value memory = true :=
    beq_iff_eq.mpr closed
  have blocks : blockCount len = (len + 15) / 16 := blockCount_eq (by omega)
  refine Vector.ext fun i below => ?_
  have some : blockCount len > 0 := by omega
  rw [getElem_bytesAt, Vector.getElem_replicate, ctrLaunches, if_pos some,
    runAll_cons, runAll_nil]
  exact ctrCrypt_closed schedule device src dst iv roundKeys _ failed
    (castInt_covers (by decide) (by omega)) below (by omega)

/-! ## Seal -/

/-- What comes before the tag of a frame is apart from it. -/
theorem before_tag {frame : Ptr} {plaintextLen k : Nat}
    (small : plaintextLen + 29 < 2 ^ 64) (before : k < 13 + plaintextLen) :
    Cell.byte (advance frame k) ∉ span (tagAddress frame plaintextLen) 16 := by
  rintro ⟨j, -, below, same⟩
  have headerLen : HEADER_LEN = 13 := rfl
  rw [tagAddress, advance_advance, advance_advance] at same
  have equal := advance_inj (by omega) (by omega) (Cell.byte.inj same)
  omega

/-- The header of a frame is apart from the ciphertext. -/
theorem before_cipher {frame : Ptr} {plaintextLen k : Nat}
    (small : plaintextLen + 29 < 2 ^ 64) (before : k < 13) :
    Cell.byte (advance frame k) ∉
      span (advance frame HEADER_LEN) plaintextLen := by
  rintro ⟨j, -, below, same⟩
  have headerLen : HEADER_LEN = 13 := rfl
  rw [advance_advance] at same
  have equal := advance_inj (by omega) (by omega) (Cell.byte.inj same)
  omega

/-- The ciphertext of a seal is apart from the text and from the IV. -/
theorem seal_cipher_apart {plaintextLen : Nat} {src dst : Ptr}
    (small : plaintextLen + 29 < 2 ^ 64)
    (apart : Disjoint (span dst (plaintextLen + 29)) (span src plaintextLen)) :
    Disjoint (span (advance dst HEADER_LEN) plaintextLen)
      (span src plaintextLen ∪ span (advance dst 1) 12) := by
  refine Set.disjoint_union_right.mpr ⟨apart.mono_left
    (span_advance_subset (by show 13 + plaintextLen ≤ _; omega)), ?_⟩
  refine Set.disjoint_right.mpr ?_
  rintro cell ⟨k, -, below, rfl⟩
  rw [advance_advance]
  exact before_cipher small (by omega)

/-- The text of an open is apart from the ciphertext and from the IV. -/
theorem open_text_apart {plaintextLen : Nat} {src dst : Ptr}
    (apart : Disjoint (span dst plaintextLen) (span src (plaintextLen + 29))) :
    Disjoint (span dst plaintextLen)
      (span (advance src HEADER_LEN) plaintextLen ∪ span (advance src 1) 12) :=
  Set.disjoint_union_right.mpr ⟨apart.mono_right
    (span_advance_subset (by show 13 + plaintextLen ≤ _; omega)),
    apart.mono_right (span_advance_subset (by omega))⟩

/-- The parts of the frame of a text. -/
def sealedParts (key : Vector Byte 16) (iv : Vector Byte 12) (p : List Byte) :
    FrameParts :=
  ⟨0x01#8, iv, (authEncrypt (aes key) iv p []).1, (authEncrypt (aes key) iv p []).2⟩

theorem sealedParts_bytes (key : Vector Byte 16) (iv : Vector Byte 12)
    (p : List Byte) :
    (sealedParts key iv p).bytes = sealFrame (aes key) iv p := rfl

/-- The launches of a seal leave the frame of the text. -/
theorem sealLaunches_frame (schedule : Schedule) {key : Vector Byte 16}
    {memory : Memory} {device : Int} {handle : KeyHandle}
    (ready : Ready key memory device handle.dRoundKeys handle.dHPow2)
    (distinct : handle.dNodesA ≠ handle.dNodesB) {plaintextLen : Nat}
    (admissible : plaintextLen ≤ 2 ^ 36 - 32) {src dst : Ptr}
    (iv : Vector Byte 12)
    (apart : Disjoint (span dst (plaintextLen + 29)) (span src plaintextLen)) :
    framePartsAt (runAll schedule
        (sealLaunches device handle src plaintextLen dst iv) memory) dst
        plaintextLen =
      sealedParts key iv (bytesAt memory src plaintextLen).toList := by
  have small : plaintextLen + 29 < 2 ^ 64 := by omega
  let body := advance dst HEADER_LEN
  let header : Launch := ⟨device, .writeFrameHeader dst iv, 1, 1⟩
  let counter := ctrLaunches device src body plaintextLen (advance dst 1)
    handle.dRoundKeys none
  let m₁ := header.run schedule memory
  let m₂ := runAll schedule counter m₁
  have ready₁ : Ready key m₁ device handle.dRoundKeys handle.dHPow2 :=
    ready_runAll (.cons (fun _ _ => by simp [header]) .nil : Operational [header])
      schedule ready
  have ready₂ : Ready key m₂ device handle.dRoundKeys handle.dHPow2 :=
    ready_runAll (ctrLaunches_operational _ _ _ _ _ _ _) schedule ready₁
  -- The header stage.
  obtain ⟨version₁, iv₁⟩ := writeFrameHeader_run schedule device dst iv memory
  have ivAt₁ : bytesAt m₁ (advance dst 1) 12 = iv := by
    ext1 i inside
    rw [getElem_bytesAt, advance_advance]
    exact iv₁ ⟨i, inside⟩
  have text₁ : bytesAt m₁ src plaintextLen = bytesAt memory src plaintextLen :=
    bytesAt_congr fun k below => header.run_frame schedule memory
      fun ⟨_, _, write⟩ => Set.disjoint_left.mp apart
        (bytesBetween_mono (le_refl 0) (by omega) write) (mem_span below)
  -- The counter stage.
  have apart₂ := seal_cipher_apart small apart
  have cipher₂ := counter_stage schedule ready₁ src body admissible (advance dst 1)
    none apart₂
  rw [ivAt₁, text₁] at cipher₂
  have header₂ : ∀ k < 13, m₂ (.byte (advance dst k)) = m₁ (.byte (advance dst k)) :=
    fun k below => ctrLaunches_frame schedule device src body (by omega) _ _ _ m₁
      (before_cipher small below)
  have ivAt₂ : bytesAt m₂ (advance dst 1) 12 = iv := by
    rw [← ivAt₁]
    refine bytesAt_congr fun k below => ?_
    rw [advance_advance]
    exact header₂ _ (by omega)
  -- The hash and the tag.
  obtain ⟨tag₄, keeps₄⟩ := finalize_stage schedule ready₂ distinct admissible dst
  rw [ivAt₂, cipher₂] at tag₄
  have stages : runAll schedule
      (sealLaunches device handle src plaintextLen dst iv) memory =
      runAll schedule (ghashLaunches device handle body plaintextLen ++
        [⟨device, .finalizeTag dst plaintextLen handle.dRoundKeys
          (ghashRoot handle plaintextLen), 1, 1⟩]) m₂ := by
    rw [sealLaunches, runAll_cons, runAll_append]
  rw [stages]
  let sealed := runAll schedule (ghashLaunches device handle body plaintextLen ++
    [⟨device, .finalizeTag dst plaintextLen handle.dRoundKeys
      (ghashRoot handle plaintextLen), 1, 1⟩]) m₂
  have cipher₄ : bytesAt sealed body plaintextLen = bytesAt m₂ body plaintextLen := by
    refine bytesAt_congr fun k below => keeps₄ _ ?_
    rw [advance_advance]
    exact before_tag small (by show 13 + k < _; omega)
  refine FrameParts.ext ?_ ?_ ?_ ?_
  · exact (keeps₄ _ (before_tag small (by omega))).trans
      ((header₂ 0 (by decide)).trans version₁)
  · refine (bytesAt_congr fun k below => ?_).trans ivAt₂
    refine keeps₄ _ ?_
    rw [advance_advance]
    exact before_tag small (by omega)
  · exact (congrArg Vector.toList cipher₄).trans cipher₂
  · rw [framePartsAt_tag]
    exact tag₄

/-! ## Open -/

/-- The status word and the text an open leaves for a frame. -/
def openedFlag (key : Vector Byte 16) (f : FrameParts) : Int :=
  if (openFrame (aes key) f).isSome then 1 else 0

def openedText (key : Vector Byte 16) (f : FrameParts) : List Byte :=
  (openFrame (aes key) f).getD (List.replicate f.cipher.length 0#8)

theorem openedFlag_eq_one {key : Vector Byte 16} {f : FrameParts} :
    openedFlag key f = 1 ↔ (openFrame (aes key) f).isSome = true := by
  unfold openedFlag
  split <;> simp [*]

theorem openedFlag_eq_zero {key : Vector Byte 16} {f : FrameParts} :
    openedFlag key f = 0 ↔ openFrame (aes key) f = none := by
  unfold openedFlag
  split
  · rename_i opened
    rw [Option.isSome_iff_ne_none] at opened
    simp [opened]
  · rename_i refused
    simpa using refused

theorem openedFlag_eq (key : Vector Byte 16) (f : FrameParts) :
    openedFlag key f =
      if f.version = 0x01#8 ∧ tag (aes key) f.iv [] f.cipher = f.tag then 1
      else 0 := by
  unfold openedFlag openFrame authDecrypt
  by_cases version : f.version = 0x01#8
  · by_cases same : tag (aes key) f.iv [] f.cipher = f.tag
    · simp [version, same]
    · simp [version, same]
  · simp [version]

theorem openedText_eq (key : Vector Byte 16) (f : FrameParts) :
    openedText key f =
      if openedFlag key f = 0 then List.replicate f.cipher.length 0#8
      else gctr (aes key) (inc32 (preCounter f.iv)) f.cipher := by
  rw [openedFlag_eq]
  unfold openedText openFrame authDecrypt
  by_cases version : f.version = 0x01#8
  · by_cases same : tag (aes key) f.iv [] f.cipher = f.tag
    · simp [version, same]
    · simp [version, same]
  · simp [version]

/-- The launches of an open leave the status and the text of the frame. -/
theorem openLaunches_result (schedule : Schedule) {key : Vector Byte 16}
    {memory : Memory} {device : Int} {handle : KeyHandle}
    (ready : Ready key memory device handle.dRoundKeys handle.dHPow2)
    (distinct : handle.dNodesA ≠ handle.dNodesB) {plaintextLen : Nat}
    (admissible : plaintextLen ≤ 2 ^ 36 - 32) {src dst : Ptr} (authOk : Ptr)
    (apart : Disjoint (span dst plaintextLen) (span src (plaintextLen + 29))) :
    let after := runAll schedule
      (openLaunches device handle src dst plaintextLen authOk) memory
    let f := framePartsAt memory src plaintextLen
    after (.flag authOk) = openedFlag key f ∧
      (bytesAt after dst plaintextLen).toList = openedText key f := by
  intro after f
  let body := advance src HEADER_LEN
  let front := ghashLaunches device handle body plaintextLen ++
    [verifyLaunch device handle src plaintextLen authOk]
  let counter := ctrLaunches device body dst plaintextLen (advance src 1)
    handle.dRoundKeys (some authOk)
  let m₁ := runAll schedule front memory
  have stages : after = runAll schedule counter m₁ := by
    have split : openLaunches device handle src dst plaintextLen authOk =
        front ++ counter := by
      simp [openLaunches, front, counter, openCtrLaunches, body]
    show runAll schedule _ memory = _
    rw [split, runAll_append]
  have ready₁ : Ready key m₁ device handle.dRoundKeys handle.dHPow2 :=
    ready_runAll ((ghashLaunches_operational _ _ _ _).append
      (.cons (fun _ _ => by simp [verifyLaunch]) .nil)) schedule ready
  obtain ⟨flag₁, bytes₁⟩ :=
    verify_stage schedule ready distinct (admissible.trans (by decide)) src authOk
  rw [← openedFlag_eq] at flag₁
  have apart₁ := open_text_apart apart
  have text := counter_stage schedule ready₁ body dst admissible (advance src 1)
    (some authOk) apart₁
  have iv₁ : bytesAt m₁ (advance src 1) 12 = f.iv :=
    bytesAt_congr fun k _ => bytes₁ _
  have cipher₁ : (bytesAt m₁ body plaintextLen).toList = f.cipher :=
    congrArg Vector.toList (bytesAt_congr fun k _ => bytes₁ _)
  have length : f.cipher.length = plaintextLen := Vector.length_toList
  have gate : (authFailed (some authOk)).value m₁ = true ↔
      openedFlag key f = 0 := by
    show (m₁ (.flag authOk) == 0) = true ↔ _
    rw [beq_iff_eq]
    exact Eq.congr_left flag₁
  rw [stages]
  constructor
  · refine (ctrLaunches_frame schedule device body dst (by omega) _ _ _ m₁ ?_).trans
      flag₁
    rintro ⟨k, -, -, same⟩
    cases same
  · rw [text, openedText_eq, length, iv₁, cipher₁]
    exact if_congr gate rfl rfl

end GpuKvSeal.System
