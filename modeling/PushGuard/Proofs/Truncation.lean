import PushGuard.Proofs.CodeStream
import PushGuard.Proofs.Encoding
import PushGuard.Proofs.Readers

/-!
# Code that ends too early

A code stream that is accepted may be cut at any byte.  Cut between two instructions, it is read as
the instructions in front of the cut, with the same targets; cut within an instruction, it is refused
because bytes are missing, and for no other reason (`readCode_of_cut`).

Every reader of the code takes the front of its bytes (`readsFront_readInstruction`), so the first
instruction is read alike from the whole code and from what is left of it (`readCodeFrom_take_add`),
or is the one that the cut goes through (`readCodeFrom_take_of_lt`).
-/

namespace PushGuard.Binary

variable {tokens : TokenTable} {offset : Nat} {bytes rest : List UInt8}

/-! ## One instruction -/

theorem readsFront_readOpcode (offset : Nat) : ReadsFront (readOpcode offset) := by
  refine (readsFront_readWord 1).bind fun first => ?_
  by_cases hfirst : first = 0xFE
  · simp only [hfirst, if_true]
    refine (readsFront_readWord 1).bind fun second => ?_
    dsimp only
    cases Opcode.ofEncoding? (0xFE00 + second) with
    | some code => exact readsFront_pure code
    | none => exact readsFront_error _
  · simp only [hfirst, if_false]
    cases Opcode.ofEncoding? first with
    | some code => exact readsFront_pure code
    | none => exact readsFront_error _

theorem readsFront_readPlain (width : Nat) (make : Nat → Operand) :
    ReadsFront (readPlain width make) :=
  (readsFront_readWord width).bind fun _ => readsFront_pure _

theorem readsFront_readToken {α : Type} (lookup : UInt32 → Option α) (make : α → Operand)
    (offset : Nat) : ReadsFront (readToken lookup make offset) := by
  refine (readsFront_readWord 4).bind fun n => ?_
  dsimp only
  cases lookup (UInt32.ofNat n) with
  | some a => exact readsFront_pure _
  | none => exact readsFront_error _

theorem readsFront_readOperand (tokens : TokenTable) (offset place : Nat) (shape : OperandShape) :
    ReadsFront (readOperand tokens offset place shape) := by
  cases shape with
  | none => exact readsFront_pure _
  | shortTarget => exact (readsFront_readWord 1).bind fun n => readsFront_pure _
  | target => exact (readsFront_readWord 4).bind fun n => readsFront_pure _
  | switch =>
    exact (readsFront_readWord 4).bind fun count =>
      (readsFront_readWords count).bind fun ns => readsFront_pure _
  | method => exact readsFront_readToken _ _ _
  | signature => exact readsFront_readToken _ _ _
  | field | typeName | token | text | int32 | int8 | int64 | double | single | localVar | shortLocal
  | argument | shortArgument =>
    show ReadsFront fun bytes => readOperand tokens offset place _ bytes
    simp only [readOperand]
    exact readsFront_readPlain _ _

/-- The operand stands behind the opcode: its place does not depend on how many bytes there are. -/
theorem readInstruction_eq_bind (tokens : TokenTable) (offset : Nat) (bytes : List UInt8) :
    readInstruction tokens offset bytes = readOpcode offset bytes >>= fun opcode =>
      readOperand tokens offset (offset + opcode.1.size) opcode.1.shape opcode.2 >>= fun operand =>
        .ok (⟨offset, opcode.1, operand.1⟩, operand.2) := by
  unfold readInstruction
  cases hcode : readOpcode offset bytes with
  | error fault => rfl
  | ok opcode =>
    obtain ⟨code, rest⟩ := opcode
    obtain ⟨hle, rfl⟩ := readOpcode_eq_ok hcode
    have hplace : offset + (bytes.length - (bytes.drop code.size).length) = offset + code.size := by
      rw [List.length_drop]
      omega
    simp only [bind, Except.bind, hplace]
    rfl

theorem readsFront_readInstruction (tokens : TokenTable) (offset : Nat) :
    ReadsFront (readInstruction tokens offset) := by
  rw [funext (readInstruction_eq_bind tokens offset)]
  refine (readsFront_readOpcode offset).bind fun code => ?_
  dsimp only
  exact (readsFront_readOperand tokens offset _ _).bind fun operand =>
    readsFront_pure (⟨offset, code, operand⟩ : CodedInstruction)

/-- What the reader takes is as wide as the instruction. -/
theorem takes_of_readInstruction {c : CodedInstruction}
    (h : readInstruction tokens offset bytes = .ok (c, rest)) (all : List CodedInstruction) :
    Takes (readInstruction tokens offset) bytes (c.linked all).width c rest := by
  obtain ⟨width, htakes⟩ := readsFront_readInstruction tokens offset bytes c rest h
  obtain ⟨-, hheads, hrest⟩ := heads_of_readInstruction h all
  rwa [htakes.width_eq hheads.width_le hrest] at htakes

theorem offset_behind {c : CodedInstruction}
    (h : readInstruction tokens offset bytes = .ok (c, rest)) (all : List CodedInstruction) :
    offset + (bytes.length - rest.length) = offset + (c.linked all).width := by
  have htakes := takes_of_readInstruction h all
  have hle := htakes.width_le
  rw [htakes.rest_eq, List.length_drop]
  omega

/-! ## The code -/

/-- A cut behind the first instruction goes through what follows it. -/
theorem readCodeFrom_take_add {c : CodedInstruction}
    (h : readInstruction tokens offset bytes = .ok (c, rest)) (all : List CodedInstruction)
    (k : Nat) :
    readCodeFrom tokens offset (bytes.take ((c.linked all).width + k)) =
      (readCodeFrom tokens (offset + (c.linked all).width) (rest.take k)).map (c :: ·) := by
  have htakes := takes_of_readInstruction h all
  have hread := htakes.of_le _ (Nat.le_add_right _ k)
  have hlength : (bytes.take (c.linked all).width).length = (c.linked all).width := by
    rw [List.length_take, Nat.min_eq_left htakes.width_le]
  rw [Nat.add_sub_cancel_left, List.take_add, ← htakes.rest_eq] at hread
  rw [List.take_add, ← htakes.rest_eq, readCodeFrom_append hread, hlength]

/-- A cut through the first instruction. -/
theorem readCodeFrom_take_of_lt {c : CodedInstruction}
    (h : readInstruction tokens offset bytes = .ok (c, rest)) (all : List CodedInstruction) {k : Nat}
    (hpos : 0 < k) (hlt : k < (c.linked all).width) :
    readCodeFrom tokens offset (bytes.take k) = .error .truncated := by
  have htakes := takes_of_readInstruction h all
  have hle := htakes.width_le
  have hne : ¬ (bytes.take k).isEmpty := by
    intro hempty
    have hnil := congrArg List.length (List.isEmpty_iff.1 hempty)
    rw [List.length_take, List.length_nil] at hnil
    omega
  rw [readCodeFrom, if_neg hne]
  split
  · next fault hfault =>
    rw [htakes.of_lt k hlt] at hfault
    obtain rfl := Except.error.inj hfault
    rfl
  · next c' rest' hread =>
    rw [htakes.of_lt k hlt] at hread
    cases hread

variable {starts : List CodedInstruction}

/-- A cut in front of an instruction, or behind the last one. -/
theorem readCodeFrom_take_startOf (h : readCodeFrom tokens offset bytes = .ok starts)
    (all : List CodedInstruction) {m : Nat} (hm : m ≤ starts.length) :
    readCodeFrom tokens offset
        (bytes.take (startOf (starts.map (CodedInstruction.linked all)) m)) =
      .ok (starts.take m) := by
  induction m generalizing offset bytes starts with
  | zero =>
    rw [startOf_zero, List.take_zero, readCodeFrom]
    rfl
  | succ m ih =>
    rcases readCodeFrom_cases h with ⟨-, rfl⟩ | ⟨c, rest, later, rfl, hread, hlater⟩
    · exact absurd hm (Nat.not_succ_le_zero m)
    · rw [offset_behind hread all] at hlater
      rw [List.map_cons, startOf_cons_succ, readCodeFrom_take_add hread all,
        ih hlater (Nat.le_of_succ_le_succ hm)]
      rfl

/-- A cut through an instruction. -/
theorem readCodeFrom_take_within (h : readCodeFrom tokens offset bytes = .ok starts)
    (all : List CodedInstruction) {id : InstructionId} {c : CodedInstruction}
    (hc : starts[id]? = some c) {k : Nat} (hpos : 0 < k) (hlt : k < (c.linked all).width) :
    readCodeFrom tokens offset
        (bytes.take (startOf (starts.map (CodedInstruction.linked all)) id + k)) =
      .error .truncated := by
  induction id generalizing offset bytes starts with
  | zero =>
    rcases readCodeFrom_cases h with ⟨-, rfl⟩ | ⟨first, rest, later, rfl, hread, -⟩
    · cases hc
    · obtain rfl := Option.some.inj hc
      rw [startOf_zero, Nat.zero_add]
      exact readCodeFrom_take_of_lt hread all hpos hlt
  | succ id ih =>
    rcases readCodeFrom_cases h with ⟨-, rfl⟩ | ⟨first, rest, later, rfl, hread, hlater⟩
    · cases hc
    · rw [offset_behind hread all] at hlater
      rw [List.map_cons, startOf_cons_succ, Nat.add_assoc, readCodeFrom_take_add hread all,
        ih hlater hc]
      rfl

/-- Every cut is between two instructions, at an end of the code, or through an instruction. -/
theorem cut_cases (instructions : List Instruction) {k : Nat} (hk : k ≤ codeSize instructions) :
    (∃ m ≤ instructions.length, k = startOf instructions m) ∨
      ∃ (id : InstructionId) (i : Instruction), instructions[id]? = some i ∧
        startOf instructions id < k ∧ k < startOf instructions id + i.width := by
  rcases Nat.lt_or_eq_of_le hk with hlt | rfl
  · obtain ⟨id, i, hget, hle, hlt⟩ := exists_covering instructions hlt
    rcases Nat.lt_or_eq_of_le hle with hwithin | rfl
    · exact Or.inr ⟨id, i, hget, hwithin, hlt⟩
    · exact Or.inl ⟨id, Nat.le_of_lt (List.getElem?_eq_some_iff.1 hget).1, rfl⟩
  · exact Or.inl ⟨instructions.length, Nat.le_refl _, (startOf_length instructions).symm⟩

/-- **A cut is found where it is.**  Take code that is accepted, and its first `k` bytes.  If the first
`m` instructions end there, these are what is read, with the same offsets and targets.  If an
instruction starts before the cut and ends behind it, bytes are missing.  There is no third case. -/
theorem readCode_of_cut (tokens : TokenTable) (code : List UInt8) (starts : List CodedInstruction)
    (h : readCode tokens code = .ok starts) (k : Nat) (hk : k ≤ code.length) :
    (∀ m ≤ starts.length, k = startOf (link starts) m →
      readCode tokens (code.take k) = .ok (starts.take m)) ∧
    (∀ c ∈ starts, c.offset < k → k < c.offset + (c.linked starts).width →
      readCode tokens (code.take k) = .error .truncated) ∧
    ((∃ m ≤ starts.length, k = startOf (link starts) m) ∨
      ∃ c ∈ starts, c.offset < k ∧ k < c.offset + (c.linked starts).width) := by
  obtain ⟨hsize, hheads⟩ := heads_of_readCodeFrom h starts
  have hoffset : ∀ (id : InstructionId) c, starts[id]? = some c →
      c.offset = startOf (link starts) id := by
    intro id c hc
    rw [(hheads id c hc).1, Nat.zero_add]
    rfl
  refine ⟨fun m hm hend => ?_, fun c hc hlow hhigh => ?_, ?_⟩
  · rw [hend]
    exact readCodeFrom_take_startOf h starts hm
  · obtain ⟨id, hid⟩ := List.mem_iff_getElem?.1 hc
    have hstart := hoffset id c hid
    have hcut : k = startOf (link starts) id + (k - c.offset) := by omega
    rw [hcut]
    exact readCodeFrom_take_within h starts hid (by omega) (by omega)
  · have hlength : (link starts).length = starts.length := List.length_map _
    rcases cut_cases (link starts) (hk.trans_eq hsize.symm) with ⟨m, hm, hend⟩ | ⟨id, i, hget, hcut⟩
    · exact Or.inl ⟨m, by omega, hend⟩
    · obtain ⟨c, hc, rfl⟩ := getElem?_link_eq_some_iff.1 hget
      rw [← hoffset id c hc] at hcut
      exact Or.inr ⟨c, List.mem_of_getElem? hc, hcut⟩

/-- A branch to the end, a switch with one target, and an opcode of two bytes. -/
def branchOverSwitch : List UInt8 :=
  [0x2B, 0x0B, 0x45, 0x01, 0x00, 0x00, 0x00, 0x00, 0x00, 0x00, 0x00, 0xFE, 0x01, 0x2A]

/-- The branch keeps its target behind the cut.  The other cuts go through the targets of the switch
and between the bytes of an opcode. -/
theorem branchOverSwitch_cut :
    readCode noTokens (branchOverSwitch.take 11) =
        .ok [⟨0, .brS, .branch 13⟩, ⟨2, .switch, .switch [11]⟩] ∧
      readCode noTokens (branchOverSwitch.take 8) = .error .truncated ∧
      readCode noTokens (branchOverSwitch.take 12) = .error .truncated := by
  have hread : readCode noTokens branchOverSwitch = .ok [⟨0, .brS, .branch 13⟩,
      ⟨2, .switch, .switch [11]⟩, ⟨11, .ceq, .plain .none⟩, ⟨13, .ret, .plain .none⟩] := by
    decide +kernel
  obtain ⟨hbetween, -, -⟩ := readCode_of_cut _ _ _ hread 11 (by decide)
  obtain ⟨-, htable, -⟩ := readCode_of_cut _ _ _ hread 8 (by decide)
  obtain ⟨-, hopcode, -⟩ := readCode_of_cut _ _ _ hread 12 (by decide)
  refine ⟨hbetween 2 (by decide) (by decide), ?_, ?_⟩
  · exact htable ⟨2, .switch, .switch [11]⟩ (by decide) (by decide) (by decide)
  · exact hopcode ⟨11, .ceq, .plain .none⟩ (by decide) (by decide) (by decide)

end PushGuard.Binary
