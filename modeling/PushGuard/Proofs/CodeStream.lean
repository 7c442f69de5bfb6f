import PushGuard.Binary
import PushGuard.Proofs.ByteWords
import PushGuard.Proofs.Layout
import PushGuard.Proofs.OpcodeTable

/-!
# What is read from a code stream

How many bytes an instruction takes is said twice: by the reader, which drops what it has read, and
by the width of the instruction, from which a layout is computed.  The two agree for every operand
that is read (`heads_of_readInstruction`).  So whatever bytes are accepted, the instructions tile the
code: each of them starts where the one before ends, and the last one ends where the code does
(`heads_of_readCodeFrom`, `tiles_of_readCode`).

Besides the width, `CodedInstruction.Heads` says which displacements are encoded in the bytes of an
instruction, and that these are what its targets come from.
-/

namespace PushGuard.Binary

variable {tokens : TokenTable} {offset : Nat} {bytes rest : List UInt8}

/-! ## One instruction -/

theorem encoding_of_ofEncoding? {value : Nat} {code : Opcode}
    (h : Opcode.ofEncoding? value = some code) : code.encoding = value := by
  have hfound := List.find?_some h
  exact beq_iff_eq.1 hfound

theorem readOpcode_eq_ok {code : Opcode} (h : readOpcode offset bytes = .ok (code, rest)) :
    code.size ≤ bytes.length ∧ rest = bytes.drop code.size := by
  rw [readOpcode, bind_eq_ok_iff] at h
  obtain ⟨⟨first, bytes'⟩, hfirst, h⟩ := h
  obtain ⟨hle, rfl, rfl⟩ := readWord_eq_ok_iff.1 hfirst
  have hlt := wordAt_lt 1 0 bytes
  simp only at h
  split at h
  · obtain ⟨⟨second, bytes'⟩, hsecond, h⟩ := (bind_eq_ok_iff _ _ _).1 h
    obtain ⟨hle', rfl, rfl⟩ := readWord_eq_ok_iff.1 hsecond
    simp only at h
    split at h
    · next found hcode =>
      obtain ⟨rfl, rfl⟩ := Prod.mk.inj (Except.ok.inj h)
      have hsize : found.size = 2 := by
        unfold Opcode.size
        rw [encoding_of_ofEncoding? hcode, if_pos (by omega)]
      rw [List.length_drop] at hle'
      rw [hsize, List.drop_drop]
      exact ⟨by omega, rfl⟩
    · cases h
  · split at h
    · next found hcode =>
      obtain ⟨rfl, rfl⟩ := Prod.mk.inj (Except.ok.inj h)
      have hsize : found.size = 1 := by
        unfold Opcode.size
        rw [encoding_of_ofEncoding? hcode, if_neg (by omega)]
      rw [hsize]
      exact ⟨hle, rfl⟩
    · cases h

theorem readPlain_eq_ok {width : Nat} {make : Nat → Operand} {coded : CodedOperand}
    (h : readPlain width make bytes = .ok (coded, rest)) :
    width ≤ bytes.length ∧ rest = bytes.drop width ∧ ∃ n, coded = .plain (make n) := by
  rw [readPlain, bind_eq_ok_iff] at h
  obtain ⟨⟨n, bytes'⟩, hword, h⟩ := h
  obtain ⟨hle, -, rfl⟩ := readWord_eq_ok_iff.1 hword
  obtain ⟨rfl, rfl⟩ := Prod.mk.inj (Except.ok.inj h)
  exact ⟨hle, rfl, n, rfl⟩

theorem readToken_eq_ok {α : Type} {lookup : UInt32 → Option α} {make : α → Operand}
    {coded : CodedOperand} (h : readToken lookup make offset bytes = .ok (coded, rest)) :
    4 ≤ bytes.length ∧ rest = bytes.drop 4 ∧ ∃ a, coded = .plain (make a) := by
  rw [readToken, bind_eq_ok_iff] at h
  obtain ⟨⟨n, bytes'⟩, hword, h⟩ := h
  obtain ⟨hle, -, rfl⟩ := readWord_eq_ok_iff.1 hword
  simp only at h
  split at h
  · next a _ =>
    obtain ⟨rfl, rfl⟩ := Prod.mk.inj (Except.ok.inj h)
    exact ⟨hle, rfl, a, rfl⟩
  · cases h

/-- The displacements that the bytes of an operand encode: one of one byte, one of four bytes, or
their number and then that many of four bytes. -/
def displacements (shape : OperandShape) (bytes : List UInt8) : List Int :=
  match shape with
  | .shortTarget => [signedAt 1 0 bytes]
  | .target => [signedAt 4 0 bytes]
  | .switch => (List.range (wordAt 4 0 bytes)).map fun m => signedAt 4 (4 + 4 * m) bytes
  | _ => []

/-- Bytes of an operand of this shape at the front of the bytes. -/
def operandWidth (shape : OperandShape) (bytes : List UInt8) : Nat :=
  shape.width?.getD (4 + 4 * wordAt 4 0 bytes)

/-- The operand was read off the front of the bytes, `place` bytes into the code: it is of its shape,
and its targets lie as far behind its end as the bytes say. -/
structure CodedOperand.Heads (shape : OperandShape) (place : Nat) (bytes : List UInt8)
    (operand : CodedOperand) : Prop where
  width_le : operandWidth shape bytes ≤ bytes.length
  admitted : ∀ starts, shape.admits (operand.link starts)
  targets : ∀ starts, (operand.link starts).targets = (displacements shape bytes).map fun d =>
    findStart? starts ((place + operandWidth shape bytes : Nat) + d)

theorem signed8_wordAt (place : Nat) (bytes : List UInt8) :
    signed8 (wordAt 1 place bytes) = signedAt 1 place bytes := Int8.toInt_ofNat'

theorem signed32_wordAt (place : Nat) (bytes : List UInt8) :
    signed32 (wordAt 4 place bytes) = signedAt 4 place bytes := Int32.toInt_ofNat'

theorem heads_of_readPlain {shape : OperandShape} {width place : Nat} {make : Nat → Operand}
    {coded : CodedOperand} (h : readPlain width make bytes = .ok (coded, rest))
    (hwidth : shape.width? = some width) (hnone : displacements shape bytes = [])
    (hmake : ∀ n, shape.admits (make n)) (hplain : ∀ n, (make n).targets = []) :
    coded.Heads shape place bytes ∧ rest = bytes.drop (operandWidth shape bytes) := by
  obtain ⟨hle, rfl, n, rfl⟩ := readPlain_eq_ok h
  have hoperand : operandWidth shape bytes = width := by rw [operandWidth, hwidth]; rfl
  refine ⟨⟨by rwa [hoperand], fun starts => hmake n, fun starts => ?_⟩, by rw [hoperand]⟩
  rw [hnone]
  exact hplain n

theorem heads_of_readOperand {place : Nat} {shape : OperandShape} {coded : CodedOperand}
    (h : readOperand tokens offset place shape bytes = .ok (coded, rest)) :
    coded.Heads shape place bytes ∧ rest = bytes.drop (operandWidth shape bytes) := by
  cases shape with
  | none =>
    obtain ⟨rfl, rfl⟩ := Prod.mk.inj (Except.ok.inj h)
    exact ⟨⟨Nat.zero_le _, fun _ => rfl, fun _ => rfl⟩, rfl⟩
  | shortTarget =>
    rw [readOperand, bind_eq_ok_iff] at h
    obtain ⟨⟨n, bytes'⟩, hword, h⟩ := h
    obtain ⟨hle, rfl, rfl⟩ := readWord_eq_ok_iff.1 hword
    obtain ⟨rfl, rfl⟩ := Prod.mk.inj (Except.ok.inj h)
    refine ⟨⟨hle, fun _ => rfl, fun starts => ?_⟩, rfl⟩
    rw [signed8_wordAt]
    rfl
  | target =>
    rw [readOperand, bind_eq_ok_iff] at h
    obtain ⟨⟨n, bytes'⟩, hword, h⟩ := h
    obtain ⟨hle, rfl, rfl⟩ := readWord_eq_ok_iff.1 hword
    obtain ⟨rfl, rfl⟩ := Prod.mk.inj (Except.ok.inj h)
    refine ⟨⟨hle, fun _ => rfl, fun starts => ?_⟩, rfl⟩
    rw [signed32_wordAt]
    rfl
  | switch =>
    rw [readOperand, bind_eq_ok_iff] at h
    obtain ⟨⟨count, bytes'⟩, hcount, h⟩ := h
    obtain ⟨⟨ns, rest'⟩, hwords, h⟩ := (bind_eq_ok_iff _ _ _).1 h
    obtain ⟨hle, rfl, rfl⟩ := readWord_eq_ok_iff.1 hcount
    obtain ⟨hle', rfl, rfl⟩ := readWords_eq_ok hwords
    obtain ⟨rfl, rfl⟩ := Prod.mk.inj (Except.ok.inj h)
    rw [List.length_drop] at hle'
    have hwidth : operandWidth .switch bytes = 4 + 4 * wordAt 4 0 bytes := rfl
    refine ⟨⟨by omega, fun _ => rfl, fun starts => ?_⟩, by rw [hwidth, List.drop_drop]⟩
    show List.map _ (List.map _ (List.map _ _)) = List.map _ (List.map _ _)
    simp only [List.map_map, Function.comp_def, wordAt_drop, signed32_wordAt, hwidth,
      Nat.add_assoc]
  | method =>
    obtain ⟨hle, rfl, a, rfl⟩ := readToken_eq_ok h
    exact ⟨⟨hle, fun _ => rfl, fun _ => rfl⟩, rfl⟩
  | signature =>
    obtain ⟨hle, rfl, a, rfl⟩ := readToken_eq_ok h
    exact ⟨⟨hle, fun _ => rfl, fun _ => rfl⟩, rfl⟩
  | field | typeName | token | text | int32 | int8 | int64 | double | single | localVar | shortLocal
  | argument | shortArgument =>
    rw [readOperand] at h
    exact heads_of_readPlain h rfl rfl (fun _ => rfl) fun _ => rfl

/-- The instruction with its targets named. -/
def CodedInstruction.linked (starts : List CodedInstruction) (c : CodedInstruction) :
    Instruction :=
  { code := c.code, operand := c.operand.link starts, offset := UInt32.ofNat c.offset }

/-- The instruction was read off the front of the bytes, which start at its offset. -/
structure CodedInstruction.Heads (starts : List CodedInstruction) (bytes : List UInt8)
    (c : CodedInstruction) : Prop where
  width_le : (c.linked starts).width ≤ bytes.length
  admitted : c.code.shape.admits (c.linked starts).operand
  targets : (c.linked starts).operand.targets =
    (displacements c.code.shape (bytes.drop c.code.size)).map fun d =>
      findStart? starts ((c.offset + (c.linked starts).width : Nat) + d)

theorem eq_switch_of_width? {shape : OperandShape} (h : shape.width? = none) : shape = .switch := by
  cases shape <;> first | rfl | cases h

/-- The operand takes as many bytes as the width of the instruction counts. -/
theorem CodedOperand.Heads.width_linked {c : CodedInstruction} {place : Nat}
    (h : c.operand.Heads c.code.shape place bytes) (starts : List CodedInstruction) :
    (c.linked starts).width = c.code.size + operandWidth c.code.shape bytes := by
  unfold Instruction.width operandWidth
  simp only [CodedInstruction.linked]
  cases hwidth : c.code.shape.width? with
  | some width => rfl
  | none =>
    have hadmitted := h.admitted starts
    have htargets := h.targets starts
    rw [eq_switch_of_width? hwidth] at hadmitted htargets
    cases hoperand : c.operand.link starts with
    | switch ids =>
      rw [hoperand] at htargets
      have hlength := congrArg List.length htargets
      simp only [Operand.targets, displacements, List.length_map, List.length_range] at hlength
      rw [← hlength]
      rfl
    | _ =>
      rw [hoperand] at hadmitted
      cases hadmitted

theorem heads_of_readInstruction {c : CodedInstruction}
    (h : readInstruction tokens offset bytes = .ok (c, rest)) (starts : List CodedInstruction) :
    c.offset = offset ∧ c.Heads starts bytes ∧ rest = bytes.drop (c.linked starts).width := by
  rw [readInstruction, bind_eq_ok_iff] at h
  obtain ⟨⟨code, afterCode⟩, hcode, h⟩ := h
  obtain ⟨⟨operand, afterOperand⟩, hoperand, h⟩ := (bind_eq_ok_iff _ _ _).1 h
  obtain ⟨rfl, rfl⟩ := Prod.mk.inj (Except.ok.inj h)
  obtain ⟨hle, rfl⟩ := readOpcode_eq_ok hcode
  obtain ⟨hheads, rfl⟩ := heads_of_readOperand hoperand
  have hwidth : (CodedInstruction.linked starts ⟨offset, code, operand⟩).width =
      code.size + operandWidth code.shape (bytes.drop code.size) :=
    CodedOperand.Heads.width_linked hheads starts
  have hplace : offset + (bytes.length - (bytes.drop code.size).length) = offset + code.size := by
    rw [List.length_drop]
    omega
  rw [hplace] at hheads
  have hoperandLe := hheads.width_le
  rw [List.length_drop] at hoperandLe
  refine ⟨rfl, ⟨?_, hheads.admitted starts, ?_⟩, ?_⟩
  · rw [hwidth]
    omega
  · rw [hwidth, ← Nat.add_assoc]
    exact hheads.targets starts
  · rw [hwidth, List.drop_drop]

/-! ## The code -/

/-- The code is empty, or an instruction comes first and the rest of the code behind it. -/
theorem readCodeFrom_cases {starts : List CodedInstruction}
    (h : readCodeFrom tokens offset bytes = .ok starts) :
    bytes = [] ∧ starts = [] ∨
      ∃ c rest later, starts = c :: later ∧ readInstruction tokens offset bytes = .ok (c, rest) ∧
        readCodeFrom tokens (offset + (bytes.length - rest.length)) rest = .ok later := by
  rw [readCodeFrom] at h
  split at h
  · next hempty => exact Or.inl ⟨List.isEmpty_iff.1 hempty, (Except.ok.inj h).symm⟩
  · split at h
    · cases h
    · next c rest hread =>
      obtain ⟨later, hlater, h⟩ := (bind_eq_ok_iff _ _ _).1 h
      exact Or.inr ⟨c, rest, later, (Except.ok.inj h).symm, hread, hlater⟩

/-- The instructions fill the bytes, and each of them was read behind those that come before it. -/
theorem heads_of_readCodeFrom {starts : List CodedInstruction}
    (h : readCodeFrom tokens offset bytes = .ok starts) (all : List CodedInstruction) :
    codeSize (starts.map (CodedInstruction.linked all)) = bytes.length ∧
      ∀ (id : InstructionId) c, starts[id]? = some c →
        c.offset = offset + startOf (starts.map (CodedInstruction.linked all)) id ∧
        c.Heads all (bytes.drop (startOf (starts.map (CodedInstruction.linked all)) id)) := by
  induction starts generalizing offset bytes with
  | nil =>
    rcases readCodeFrom_cases h with ⟨rfl, -⟩ | ⟨c, rest, later, hcons, -⟩
    · exact ⟨rfl, fun id c hc => by cases hc⟩
    · cases hcons
  | cons first later ih =>
    rcases readCodeFrom_cases h with ⟨-, hnil⟩ | ⟨c, rest, later', hcons, hread, hlater⟩
    · cases hnil
    · obtain ⟨rfl, rfl⟩ := List.cons.inj hcons
      obtain ⟨hoffset, hheads, rfl⟩ := heads_of_readInstruction hread all
      have hwidth := hheads.width_le
      obtain ⟨hsize, hall⟩ := ih hlater
      rw [List.length_drop] at hsize hall
      have hnext : bytes.length - (bytes.length - (first.linked all).width) =
          (first.linked all).width := by omega
      rw [hnext] at hall
      refine ⟨?_, fun id c hc => ?_⟩
      · rw [List.map_cons, codeSize_cons, hsize]
        omega
      · cases id with
        | zero =>
          obtain rfl := Option.some.inj hc
          exact ⟨hoffset, hheads⟩
        | succ id =>
          obtain ⟨hoffset', hheads'⟩ := hall id c hc
          rw [List.drop_drop] at hheads'
          rw [List.map_cons, startOf_cons_succ, ← Nat.add_assoc]
          exact ⟨hoffset', hheads'⟩

variable {starts : List CodedInstruction} {code : List UInt8}

theorem getElem?_link_eq_some_iff {id : InstructionId} {i : Instruction} :
    (link starts)[id]? = some i ↔ ∃ c, starts[id]? = some c ∧ c.linked starts = i := by
  show (starts.map (CodedInstruction.linked starts))[id]? = some i ↔ _
  rw [List.getElem?_map, Option.map_eq_some_iff]

/-- The offsets of code that fits into 32 bits are kept when the targets are named. -/
theorem toNat_offset_linked (h : readCode tokens code = .ok starts) (hsize : code.length < 2 ^ 32)
    {id : InstructionId} {c : CodedInstruction} (hc : starts[id]? = some c) :
    (c.linked starts).offset.toNat = c.offset := by
  obtain ⟨hcode, hall⟩ := heads_of_readCodeFrom h starts
  have hend : startOf (link starts) id ≤ code.length := by
    rw [← hcode, ← startOf_length]
    apply startOf_mono
    rw [List.length_map]
    exact Nat.le_of_lt (List.getElem?_eq_some_iff.1 hc).1
  have hoffset : c.offset = 0 + startOf (link starts) id := (hall id c hc).1
  show (UInt32.ofNat c.offset).toNat = c.offset
  rw [UInt32.toNat_ofNat']
  exact Nat.mod_eq_of_lt (by omega)

/-- The instructions lie one behind the other, and end where the code does. -/
theorem tiles_of_readCode (h : readCode tokens code = .ok starts) (hsize : code.length < 2 ^ 32)
    (name : String) (handlers : List Handler) :
    (Body.mk name (link starts) handlers).Tiles code.length where
  offset := by
    intro id i hget
    obtain ⟨c, hc, rfl⟩ := getElem?_link_eq_some_iff.1 hget
    have hoffset := ((heads_of_readCodeFrom h starts).2 id c hc).1
    rw [Nat.zero_add] at hoffset
    exact (toNat_offset_linked h hsize hc).trans hoffset
  size := (heads_of_readCodeFrom h starts).1

/-! ## The body -/

theorem codeSize_lt_of_readHeader {header : Header} (h : readHeader bytes = .ok header) :
    header.codeSize < 2 ^ 32 := by
  unfold readHeader at h
  split at h
  · cases h
  · next first _ =>
    split at h
    · obtain rfl := Except.ok.inj h
      have hfirst := first.toNat_lt
      show first.toNat / 4 < 2 ^ 32
      omega
    · split at h
      · obtain ⟨⟨flags, bytes₁⟩, -, h⟩ := (bind_eq_ok_iff _ _ _).1 h
        obtain ⟨⟨maxStack, bytes₂⟩, -, h⟩ := (bind_eq_ok_iff _ _ _).1 h
        obtain ⟨⟨size, bytes₃⟩, hsize, h⟩ := (bind_eq_ok_iff _ _ _).1 h
        obtain ⟨⟨locals, bytes₄⟩, -, h⟩ := (bind_eq_ok_iff _ _ _).1 h
        obtain rfl := Except.ok.inj h
        obtain ⟨-, rfl, -⟩ := readWord_eq_ok_iff.1 hsize
        exact wordAt_lt 4 0 bytes₂
      · cases h

theorem slice_eq_ok_iff {start size : Nat} {part : List UInt8} :
    slice start size bytes = .ok part ↔
      start + size ≤ bytes.length ∧ part = (bytes.drop start).take size := by
  unfold slice
  by_cases hle : start + size ≤ bytes.length
  · simp [hle, eq_comm]
  · simp [hle]

/-- The parts that a body was read from. -/
theorem exists_parts_of_read {name : String} {body : Body} (h : read tokens name bytes = .ok body) :
    ∃ header code starts, readHeader bytes = .ok header ∧
      slice header.codeStart header.codeSize bytes = .ok code ∧
      code.length = header.codeSize ∧ header.codeSize < 2 ^ 32 ∧
      readCode tokens code = .ok starts ∧
      readHandlers tokens header starts bytes = .ok body.handlers ∧
      body = ⟨name, link starts, body.handlers⟩ := by
  rw [read, bind_eq_ok_iff] at h
  obtain ⟨header, hheader, h⟩ := h
  obtain ⟨code, hcode, h⟩ := (bind_eq_ok_iff _ _ _).1 h
  obtain ⟨starts, hstarts, h⟩ := (bind_eq_ok_iff _ _ _).1 h
  obtain ⟨handlers, hhandlers, h⟩ := (bind_eq_ok_iff _ _ _).1 h
  obtain rfl := Except.ok.inj h
  obtain ⟨hle, hpart⟩ := slice_eq_ok_iff.1 hcode
  have hlength : code.length = header.codeSize := by
    rw [hpart, List.length_take, List.length_drop]
    omega
  exact ⟨header, code, starts, hheader, hcode, hlength, codeSize_lt_of_readHeader hheader, hstarts,
    hhandlers, rfl⟩

/-- **What is read tiles the code.**  In every body that is read from bytes, the first instruction has
offset zero, each next one starts where the one before ends, and the last one ends where the header
says that the code does.  So laying the body out anew changes none of its offsets. -/
theorem read_tiles_code (tokens : TokenTable) (name : String) (bytes : List UInt8) (body : Body)
    (h : read tokens name bytes = .ok body) :
    ∃ header, readHeader bytes = .ok header ∧
      (∀ i, body.get? 0 = some i → i.offset = 0) ∧
      (∀ id i next, body.get? id = some i → body.get? (id + 1) = some next →
        next.offset.toNat = i.offset.toNat + i.width) ∧
      (∀ i, body.instructions.getLast? = some i → i.offset.toNat + i.width = header.codeSize) ∧
      (body.instructions = [] → header.codeSize = 0) ∧
      body.relaid = body := by
  obtain ⟨header, code, starts, hheader, -, hlength, hsize, hstarts, -, hbody⟩ :=
    exists_parts_of_read h
  have htiles : body.Tiles header.codeSize := by
    rw [hbody, ← hlength]
    exact tiles_of_readCode hstarts (by omega) name body.handlers
  refine ⟨header, hheader, fun i => htiles.offset_first, fun id i next => htiles.offset_next,
    fun i => htiles.end_of_last, fun hempty => ?_, htiles.relaid_eq⟩
  rw [← htiles.size, hempty]
  rfl

/-- A switch with one target far away, and an opcode of two bytes. -/
def farSwitch : List UInt8 :=
  [0x36, 0x02, 0x45, 0x01, 0x00, 0x00, 0x00, 0xFF, 0xFF, 0xFF, 0x7F, 0xFE, 0x01, 0x2A]

/-- No token stands for anything. -/
def noTokens : TokenTable := ⟨fun _ => none, fun _ => none, fun _ => none⟩

/-- The instructions have 1, 9, 2 and 1 bytes. -/
theorem farSwitch_tiled : ∃ body, read noTokens "M" farSwitch = .ok body ∧
    (∀ i next, body.get? 1 = some i → body.get? 2 = some next →
      next.offset.toNat = i.offset.toNat + i.width) ∧
    (∀ i, body.instructions.getLast? = some i → i.offset.toNat + i.width = 13) ∧
    body.relaid = body := by
  have hread : read noTokens "M" farSwitch = .ok ⟨"M", [{ code := .ldarg0, offset := 0 },
      { code := .switch, operand := .switch [none], offset := 1 },
      { code := .ceq, offset := 10 }, { code := .ret, offset := 12 }], []⟩ := by
    decide +kernel
  obtain ⟨header, hheader, -, hnext, hlast, -, hrelaid⟩ := read_tiles_code _ _ _ _ hread
  obtain rfl : ⟨1, 13, false⟩ = header := Except.ok.inj hheader
  exact ⟨_, hread, hnext 1, hlast, hrelaid⟩

end PushGuard.Binary
