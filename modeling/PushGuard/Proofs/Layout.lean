import Mathlib.Algebra.Order.Ring.Int
import Mathlib.Data.List.Forall2
import Mathlib.Order.Monotone.Basic
import PushGuard.Body

/-!
# Where instructions start

Laying out a list of instructions gives each of them the sum of the widths before it as its offset
(`getElem?_layout`).  Since every instruction has a width, the offsets increase (`startOf_lt`), up to
where they no longer fit into 32 bits.  In a body with such offsets (`Body.Tiles`) the instructions lie
one behind the other, without a gap.

Offsets that increase are told apart, so a search by offset has one answer at most, and it does not matter
how the search is made (`Body.Searches.eq_some_iff`).
-/

namespace PushGuard

theorem Instruction.width_pos (i : Instruction) : 0 < i.width := by
  have hsize : 0 < i.code.size := by
    unfold Opcode.size
    split <;> omega
  unfold Instruction.width
  omega

/-- The width of an instruction depends on its opcode and its operand. -/
theorem Instruction.width_congr {i j : Instruction} (hcode : i.code = j.code)
    (hoperand : i.operand = j.operand) : i.width = j.width := by
  unfold width
  rw [hcode, hoperand]

/-- The bytes in front of an instruction: the sum of the widths before it. -/
def startOf (instructions : List Instruction) (id : InstructionId) : Nat :=
  ((instructions.take id).map Instruction.width).sum

/-- The bytes of all instructions. -/
def codeSize (instructions : List Instruction) : Nat := (instructions.map Instruction.width).sum

@[simp] theorem startOf_zero (instructions : List Instruction) : startOf instructions 0 = 0 := rfl

@[simp] theorem startOf_cons_succ (i : Instruction) (rest : List Instruction) (id : InstructionId) :
    startOf (i :: rest) (id + 1) = i.width + startOf rest id := by
  simp [startOf]

theorem startOf_succ {instructions : List Instruction} {id : InstructionId} {i : Instruction}
    (h : instructions[id]? = some i) :
    startOf instructions (id + 1) = startOf instructions id + i.width := by
  unfold startOf
  rw [List.take_add_one, h, List.map_append, List.sum_append]
  simp

theorem startOf_length (instructions : List Instruction) :
    startOf instructions instructions.length = codeSize instructions := by
  rw [startOf, List.take_length, codeSize]

theorem startOf_le_succ (instructions : List Instruction) (id : InstructionId) :
    startOf instructions id ≤ startOf instructions (id + 1) := by
  cases h : instructions[id]? with
  | none =>
    have hlength := List.getElem?_eq_none_iff.1 h
    apply Nat.le_of_eq
    unfold startOf
    rw [List.take_of_length_le hlength, List.take_of_length_le (Nat.le_succ_of_le hlength)]
  | some i =>
    rw [startOf_succ h]
    exact Nat.le_add_right _ _

theorem startOf_mono (instructions : List Instruction) : Monotone (startOf instructions) :=
  monotone_nat_of_le_succ (startOf_le_succ instructions)

/-- A later instruction starts behind an earlier one. -/
theorem startOf_lt {instructions : List Instruction} {id id' : InstructionId} (hlt : id < id')
    (hid : id < instructions.length) : startOf instructions id < startOf instructions id' := by
  have hget : instructions[id]? = some instructions[id] := List.getElem?_eq_getElem hid
  calc startOf instructions id
      < startOf instructions (id + 1) := by
        rw [startOf_succ hget]
        exact Nat.lt_add_of_pos_right instructions[id].width_pos
    _ ≤ startOf instructions id' := startOf_mono instructions hlt

theorem startOf_injOn {instructions : List Instruction} {id id' : InstructionId}
    (hid : id < instructions.length) (hid' : id' < instructions.length)
    (h : startOf instructions id = startOf instructions id') : id = id' := by
  rcases Nat.lt_trichotomy id id' with hlt | heq | hlt
  · exact absurd h (Nat.ne_of_lt (startOf_lt hlt hid))
  · exact heq
  · exact absurd h.symm (Nat.ne_of_lt (startOf_lt hlt hid'))

theorem codeSize_cons (i : Instruction) (rest : List Instruction) :
    codeSize (i :: rest) = i.width + codeSize rest := by
  simp [codeSize]

/-- Every byte of the code belongs to an instruction. -/
theorem exists_covering (instructions : List Instruction) {byte : Nat}
    (h : byte < codeSize instructions) :
    ∃ (id : InstructionId) (i : Instruction), instructions[id]? = some i ∧
      startOf instructions id ≤ byte ∧ byte < startOf instructions id + i.width := by
  induction instructions generalizing byte with
  | nil => exact absurd h (Nat.not_lt_zero byte)
  | cons first rest ih =>
    rw [codeSize_cons] at h
    by_cases hfirst : byte < first.width
    · exact ⟨0, first, rfl, Nat.zero_le byte, by rw [startOf_zero]; omega⟩
    · have hrest : byte - first.width < codeSize rest := by omega
      obtain ⟨id, i, hget, hle, hlt⟩ := ih hrest
      refine ⟨id + 1, i, hget, ?_, ?_⟩
      · rw [startOf_cons_succ]
        omega
      · rw [startOf_cons_succ]
        omega

/-! ## The layout -/

/-- Laying out changes offsets only, and these are the sums of the widths. -/
theorem getElem?_layout (start : Nat) (instructions : List Instruction) (id : InstructionId) :
    (layout start instructions)[id]? = instructions[id]?.map fun i =>
      { i with offset := UInt32.ofNat (start + startOf instructions id) } := by
  induction instructions generalizing start id with
  | nil => rfl
  | cons first rest ih =>
    cases id with
    | zero => simp [layout]
    | succ id =>
      rw [layout, List.getElem?_cons_succ, List.getElem?_cons_succ, ih, startOf_cons_succ,
        Nat.add_assoc]

theorem map_width_layout (start : Nat) (instructions : List Instruction) :
    (layout start instructions).map Instruction.width = instructions.map Instruction.width := by
  induction instructions generalizing start with
  | nil => rfl
  | cons first rest ih =>
    rw [layout, List.map_cons, List.map_cons, ih]
    rfl

theorem startOf_layout (start : Nat) (instructions : List Instruction) (id : InstructionId) :
    startOf (layout start instructions) id = startOf instructions id := by
  unfold startOf
  rw [List.map_take, List.map_take, map_width_layout]

/-- The layout depends on the opcodes and the operands, not on the offsets that stood there. -/
theorem layout_congr (start : Nat) {is js : List Instruction}
    (h : List.Forall₂ (fun i j => i.code = j.code ∧ i.operand = j.operand) is js) :
    layout start is = layout start js := by
  induction h generalizing start with
  | nil => rfl
  | @cons i j _ _ hij _ ih =>
    obtain ⟨hcode, hoperand⟩ := hij
    rw [layout, layout, Instruction.width_congr hcode hoperand, hcode, hoperand, ih]

theorem forall₂_layout (start : Nat) (instructions : List Instruction) :
    List.Forall₂ (fun i j => i.code = j.code ∧ i.operand = j.operand) (layout start instructions)
      instructions := by
  induction instructions generalizing start with
  | nil => exact .nil
  | cons first rest ih => exact .cons ⟨rfl, rfl⟩ (ih _)

theorem layout_append (start : Nat) (front back : List Instruction) :
    layout start (front ++ back) = layout start front ++ layout (start + codeSize front) back := by
  induction front generalizing start with
  | nil => rfl
  | cons i front ih =>
    rw [List.cons_append, layout, layout, List.cons_append, ih, codeSize, codeSize, List.map_cons,
      List.sum_cons, Nat.add_assoc]

namespace Body

/-- Laying out a second time changes nothing. -/
theorem relaid_ofInstructions (name : String) (instructions : List Instruction)
    (handlers : List Handler) :
    (ofInstructions name instructions handlers).relaid = ofInstructions name instructions handlers := by
  unfold relaid ofInstructions
  rw [layout_congr 0 (forall₂_layout 0 instructions)]

/-- In a body that was laid out, an instruction's offset is the sum of the widths before it. -/
theorem offset_ofInstructions {name : String} {instructions : List Instruction}
    {handlers : List Handler} {id : InstructionId} {i : Instruction}
    (h : (ofInstructions name instructions handlers).get? id = some i) :
    i.offset = UInt32.ofNat (startOf (ofInstructions name instructions handlers).instructions id) := by
  unfold get? ofInstructions at h
  rw [getElem?_layout, Option.map_eq_some_iff] at h
  obtain ⟨j, -, rfl⟩ := h
  show UInt32.ofNat (0 + startOf instructions id) = UInt32.ofNat (startOf (layout 0 instructions) id)
  rw [startOf_layout, Nat.zero_add]

/-- The instructions lie one behind the other from offset zero on, and fill so many bytes. -/
structure Tiles (b : Body) (size : Nat) : Prop where
  offset : ∀ id i, b.get? id = some i → i.offset.toNat = startOf b.instructions id
  size : codeSize b.instructions = size

namespace Tiles

variable {b : Body} {size : Nat} {id : InstructionId} {i : Instruction}

theorem offset_first (h : b.Tiles size) (hget : b.get? 0 = some i) : i.offset = 0 := by
  apply UInt32.toNat_inj.1
  rw [h.offset 0 i hget, startOf_zero]
  rfl

theorem offset_next (h : b.Tiles size) {next : Instruction} (hget : b.get? id = some i)
    (hnext : b.get? (id + 1) = some next) : next.offset.toNat = i.offset.toNat + i.width := by
  rw [h.offset (id + 1) next hnext, h.offset id i hget]
  exact startOf_succ hget

theorem end_of_last (h : b.Tiles size) (hlast : b.instructions.getLast? = some i) :
    i.offset.toNat + i.width = size := by
  rw [List.getLast?_eq_getElem?] at hlast
  have hlt := (List.getElem?_eq_some_iff.1 hlast).1
  have hlength : b.instructions.length - 1 + 1 = b.instructions.length := by omega
  rw [h.offset _ i hlast, ← startOf_succ hlast, hlength, startOf_length, h.size]

/-- An instruction lies within the code. -/
theorem end_le (h : b.Tiles size) (hget : b.get? id = some i) :
    i.offset.toNat + i.width ≤ size := by
  have hlt := b.lt_size_of_get? id i hget
  rw [h.offset id i hget, ← startOf_succ hget, ← h.size, ← startOf_length]
  exact startOf_mono b.instructions hlt

/-- Laying out a body whose instructions lie like this changes nothing. -/
theorem relaid_eq (h : b.Tiles size) : b.relaid = b := by
  have hlayout : layout 0 b.instructions = b.instructions := by
    apply List.ext_getElem?
    intro id
    rw [getElem?_layout]
    cases hget : b.instructions[id]? with
    | none => rfl
    | some i =>
      rw [Option.map_some, Nat.zero_add, ← h.offset id i hget, UInt32.ofNat_toNat]
  unfold relaid
  rw [hlayout]

end Tiles

/-! ## Searching by offset -/

/-- What one may rely on in a search by offset: what it finds starts there, and it finds something if an
instruction starts there. -/
structure Searches (b : Body) (search : UInt32 → Option InstructionId) : Prop where
  found : ∀ offset id, search offset = some id → b.offset? id = some offset
  missed : ∀ offset, search offset = none → ∀ id, b.offset? id ≠ some offset

theorem searches_findOffset? (b : Body) : b.Searches b.findOffset? where
  found offset id h := by
    obtain ⟨hlt, hoffset, -⟩ := List.findIdx?_eq_some_iff_getElem.1 h
    rw [offset?, get?, List.getElem?_eq_getElem hlt, Option.map_some, eq_of_beq hoffset]
  missed offset h id hid := by
    obtain ⟨i, hget, rfl⟩ := Option.map_eq_some_iff.1 hid
    have hother := List.findIdx?_eq_none_iff.1 h i (List.mem_of_getElem? hget)
    rw [beq_self_eq_true] at hother
    cases hother

/-- If offsets are told apart, there is one thing to find. -/
theorem Searches.eq_some_iff {b : Body} {search : UInt32 → Option InstructionId}
    (h : b.Searches search)
    (hunique : ∀ {id id' offset}, b.offset? id = some offset → b.offset? id' = some offset → id = id')
    (offset : UInt32) (id : InstructionId) :
    search offset = some id ↔ b.offset? id = some offset := by
  constructor
  · exact h.found offset id
  · intro hid
    cases hsearch : search offset with
    | none => exact absurd hid (h.missed offset hsearch id)
    | some id' => rw [hunique hid (h.found offset id' hsearch)]

/-- As long as the last instruction starts within 32 bits, each starts at the sum of the widths before
it. -/
theorem offset?_ofInstructions_eq_some_iff {instructions : List Instruction}
    (hlast : startOf instructions (instructions.length - 1) < 2 ^ 32) (name : String)
    (handlers : List Handler) (id : InstructionId) (offset : UInt32) :
    (ofInstructions name instructions handlers).offset? id = some offset ↔
      id < instructions.length ∧ startOf instructions id = offset.toNat := by
  have hoffset : (ofInstructions name instructions handlers).offset? id =
      instructions[id]?.map fun _ => UInt32.ofNat (startOf instructions id) := by
    rw [offset?, get?, ofInstructions, getElem?_layout, Option.map_map, Nat.zero_add]
    rfl
  rw [hoffset]
  by_cases hid : id < instructions.length
  · have hle : startOf instructions id ≤ startOf instructions (instructions.length - 1) :=
      startOf_mono instructions (Nat.le_sub_one_of_lt hid)
    have hvalue : (UInt32.ofNat (startOf instructions id)).toNat = startOf instructions id :=
      UInt32.toNat_ofNat_of_lt' (by rw [UInt32.size]; omega)
    rw [List.getElem?_eq_getElem hid, Option.map_some, Option.some_inj, ← UInt32.toNat_inj, hvalue]
    exact ⟨fun heq => ⟨hid, heq⟩, fun heq => heq.2⟩
  · rw [List.getElem?_eq_none (Nat.le_of_not_lt hid), Option.map_none]
    exact ⟨nofun, fun heq => absurd heq.1 hid⟩

/-- **Offsets identify instructions** in a body that was laid out, whatever its operands are, if the last
instruction starts within 32 bits.  They increase, the search by offset is the inverse of the offsets, and
it fails just where no instruction starts.  So every search that can be relied on gives the same. -/
theorem offsets_identify_instructions (name : String) (instructions : List Instruction)
    (handlers : List Handler) (hlast : startOf instructions (instructions.length - 1) < 2 ^ 32) :
    let b := ofInstructions name instructions handlers
    (∀ id id' offset offset', id < id' → b.offset? id = some offset → b.offset? id' = some offset' →
      offset < offset') ∧
    (∀ offset id, b.findOffset? offset = some id ↔ b.offset? id = some offset) ∧
    (∀ offset, b.findOffset? offset = none ↔
      ∀ id < instructions.length, startOf instructions id ≠ offset.toNat) ∧
    ∀ search, b.Searches search → search = b.findOffset? := by
  intro b
  have hstarts : ∀ id offset, b.offset? id = some offset ↔
      id < instructions.length ∧ startOf instructions id = offset.toNat :=
    offset?_ofInstructions_eq_some_iff hlast name handlers
  have hunique : ∀ {id id' offset}, b.offset? id = some offset → b.offset? id' = some offset →
      id = id' := by
    intro id id' offset hid hid'
    obtain ⟨hlt, hstart⟩ := (hstarts id offset).1 hid
    obtain ⟨hlt', hstart'⟩ := (hstarts id' offset).1 hid'
    exact startOf_injOn hlt hlt' (hstart.trans hstart'.symm)
  have hfind := b.searches_findOffset?.eq_some_iff hunique
  refine ⟨?_, hfind, ?_, ?_⟩
  · intro id id' offset offset' hlt hid hid'
    obtain ⟨hid, hstart⟩ := (hstarts id offset).1 hid
    obtain ⟨-, hstart'⟩ := (hstarts id' offset').1 hid'
    rw [UInt32.lt_iff_toNat_lt, ← hstart, ← hstart']
    exact startOf_lt hlt hid
  · intro offset
    rw [Option.eq_none_iff_forall_ne_some]
    constructor
    · intro hnone id hid hstart
      exact hnone id ((hfind offset id).2 ((hstarts id offset).2 ⟨hid, hstart⟩))
    · intro hnone id hid
      obtain ⟨hlt, hstart⟩ := (hstarts id offset).1 ((hfind offset id).1 hid)
      exact hnone id hlt hstart
  · intro search hsearch
    funext offset
    apply Option.ext
    intro id
    exact (hsearch.eq_some_iff hunique offset id).trans (hfind offset id).symm

/-- Two switches, of which the first has an operand of another kind, and an instruction without the
operand that it should have. -/
def unevenCode : List Instruction :=
  [{ code := .switch, operand := .text "none" }, { code := .switch, operand := .switch [none, some 0] },
    { code := .ldcI4S }, { code := .ret }]

/-- The offsets of `unevenCode` are 0, 5, 18 and 20; none starts at 4. -/
theorem unevenCode_identified :
    startOf unevenCode (unevenCode.length - 1) < 2 ^ 32 ∧
    (ofInstructions "Uneven" unevenCode []).offset? 2 = some 18 ∧
    (ofInstructions "Uneven" unevenCode []).findOffset? 18 = some 2 ∧
    (ofInstructions "Uneven" unevenCode []).findOffset? 4 = none := by
  have hlast : startOf unevenCode (unevenCode.length - 1) < 2 ^ 32 := by decide
  obtain ⟨-, hfind, hnone, -⟩ := offsets_identify_instructions "Uneven" unevenCode [] hlast
  have hoffset : (ofInstructions "Uneven" unevenCode []).offset? 2 = some 18 := by decide
  exact ⟨hlast, hoffset, (hfind 18 2).2 hoffset, (hnone 4).2 (by decide)⟩

end Body

end PushGuard
