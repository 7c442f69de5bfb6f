import PushGuard.Binary
import PushGuard.Proofs.ByteWords
import PushGuard.Proofs.Layout
import PushGuard.Proofs.OpcodeTable

/-!
# Encoding code streams

A reference encoder for the code of a body, and the theorem that reading undoes it
(`read_encoded_body`).  An instruction is its opcode and the bytes of its operand; a branch is written as
its displacement from the end of the instruction, a method or a signature as a token.

The reader knows nothing of the instructions further down, so it first gives a branch as an absolute
offset.  `readInstruction_encode` says what it makes of one instruction, `readCodeFrom_encode` of all
of them, and `link_coded` names the targets.
-/

namespace PushGuard.Binary

/-! ## The encoder -/

/-- The opcode in one byte, or in two of which the first is `0xFE`. -/
def encodeOpcode (code : Opcode) : List UInt8 :=
  if code.encoding > 0xFF then [0xFE, UInt8.ofNat (code.encoding % 256)]
  else [UInt8.ofNat code.encoding]

/-- The offset that a branch to this target goes to. -/
def targetOffset (instructions : List Instruction) : Option InstructionId → Int
  | some target => startOf instructions target
  | none => 0

/-- How far a target lies behind the end of the instruction at `id`. -/
def displacement (instructions : List Instruction) (id : InstructionId)
    (target : Option InstructionId) : Int :=
  targetOffset instructions target - startOf instructions (id + 1)

/-- The number that an operand of fixed width is written as.  Names cannot be written. -/
def operandNumber (instructions : List Instruction) (id : InstructionId) (token : UInt32) :
    Operand → Int
  | .int8 value => value.toInt
  | .int32 value => value.toInt
  | .int64 value => value.toInt
  | .single bits => bits.toNat
  | .double bits => bits.toNat
  | .localVar index | .argument index => index.toNat
  | .target target => displacement instructions id target
  | .method _ | .signature _ => token.toNat
  | .token value => value.toNat
  | .none | .switch _ | .symbol _ | .text _ => 0

/-- The bytes of an operand: a number as wide as the shape says, or the number of targets and then
the targets. -/
def encodeOperand (instructions : List Instruction) (id : InstructionId) (token : UInt32)
    (shape : OperandShape) (operand : Operand) : List UInt8 :=
  match shape.width? with
  | some width => intBytes width (operandNumber instructions id token operand)
  | none =>
    intBytes 4 operand.targets.length ++
      (operand.targets.map (displacement instructions id)).flatMap (intBytes 4)

/-- The bytes of the instruction at `id`. -/
def encodeInstruction (instructions : List Instruction) (id : InstructionId) (token : UInt32)
    (i : Instruction) : List UInt8 :=
  encodeOpcode i.code ++ encodeOperand instructions id token i.code.shape i.operand

/-- The bytes of the instructions from `id` on. -/
def encodeFrom (instructions : List Instruction) (tokenOf : InstructionId → UInt32) :
    InstructionId → List Instruction → List UInt8
  | _, [] => []
  | id, i :: rest =>
    encodeInstruction instructions id (tokenOf id) i ++
      encodeFrom instructions tokenOf (id + 1) rest

/-- The code stream of instructions.  The method or the signature that the instruction at `id` names
is written as the token `tokenOf id`. -/
def encode (tokenOf : InstructionId → UInt32) (instructions : List Instruction) : List UInt8 :=
  encodeFrom instructions tokenOf 0 instructions

/-- A one-byte header in front of code of this size. -/
def tinyHeader (size : Nat) : List UInt8 := [UInt8.ofNat (size * 4 + 2)]

/-- A header of twelve bytes in front of code of this size. -/
def fatHeader (flags : UInt16) (maxStack : UInt16) (size : Nat) (locals : UInt32) : List UInt8 :=
  intBytes 2 flags.toNat ++ intBytes 2 maxStack.toNat ++ intBytes 4 size ++ intBytes 4 locals.toNat

/-- The bits of a displacement besides its sign. -/
def displacementBits (shape : OperandShape) : Nat := if shape = .shortTarget then 7 else 31

/-- An operand of this shape has room for the displacement. -/
def FitsShape (shape : OperandShape) (n : Int) : Prop :=
  -2 ^ displacementBits shape ≤ n ∧ n < 2 ^ displacementBits shape

instance (shape : OperandShape) (n : Int) : Decidable (FitsShape shape n) :=
  inferInstanceAs (Decidable (_ ∧ _))

/-- The instruction at `id` can be written, and its token stands for what it names. -/
structure Encodable (tokens : TokenTable) (instructions : List Instruction) (id : InstructionId)
    (token : UInt32) (i : Instruction) : Prop where
  shape : i.code.shape.admits i.operand
  notNamed : (∀ name, i.operand ≠ .symbol name) ∧ ∀ value, i.operand ≠ .text value
  targets : ∀ target ∈ i.operand.targets, ∃ j < instructions.length, target = some j
  displacements : ∀ target ∈ i.operand.targets,
    FitsShape i.code.shape (displacement instructions id target)
  shortIndex : i.code.shape = .shortLocal ∨ i.code.shape = .shortArgument →
    operandNumber instructions id token i.operand < 256
  method : ∀ m, i.operand = .method m → tokens.method? token = some m
  signature : ∀ s, i.operand = .signature s → tokens.signature? token = some s

/-! ## Reading one instruction -/

theorem readWord_cons (byte : UInt8) (rest : List UInt8) :
    readWord 1 (byte :: rest) = .ok (byte.toNat, rest) :=
  readWord_append [byte] rest

theorem length_encodeOpcode (code : Opcode) : (encodeOpcode code).length = code.size := by
  unfold encodeOpcode Opcode.size
  split <;> rfl

theorem readOpcode_encodeOpcode (code : Opcode) (offset : Nat) (rest : List UInt8) :
    readOpcode offset (encodeOpcode code ++ rest) = .ok (code, rest) := by
  unfold encodeOpcode readOpcode
  rcases code.encoding_range with hlt | ⟨hge, hlt⟩
  · have hbyte : (UInt8.ofNat code.encoding).toNat = code.encoding := by
      rw [UInt8.toNat_ofNat']
      omega
    have hne : ¬ code.encoding = 0xFE := by omega
    rw [if_neg (by omega), List.singleton_append, readWord_cons, hbyte]
    simp only [bind, Except.bind, if_neg hne, code.ofEncoding?_encoding]
    rfl
  · have hbyte : (UInt8.ofNat (code.encoding % 256)).toNat = code.encoding % 256 := by
      rw [UInt8.toNat_ofNat']
      omega
    have hencoding : 0xFE00 + code.encoding % 256 = code.encoding := by omega
    rw [if_pos (by omega), List.cons_append, List.singleton_append, readWord_cons]
    simp only [bind, Except.bind, readWord_cons, hbyte, hencoding, code.ofEncoding?_encoding]
    rfl

theorem readToken_intBytes {α : Type} {lookup : UInt32 → Option α} {token : UInt32} {a : α}
    (h : lookup token = some a) (operand : α → Operand) (offset : Nat) (rest : List UInt8) :
    readToken lookup operand offset (intBytes 4 token.toNat ++ rest) =
      .ok (.plain (operand a), rest) := by
  unfold readToken
  rw [readWord_intBytes]
  simp only [bind, Except.bind, uint32_ofNat_emod, h]
  rfl

/-- What the reader makes of an operand before the targets are named. -/
def codedOperand (instructions : List Instruction) : Operand → CodedOperand
  | .target target => .branch (targetOffset instructions target)
  | .switch targets => .switch (targets.map (targetOffset instructions))
  | operand => .plain operand

variable {tokens : TokenTable} {instructions : List Instruction} {id : InstructionId}
  {token : UInt32} {i : Instruction}

/-- An operand that is made of the number it is written as. -/
theorem readPlain_encodeOperand {shape : OperandShape} {operand : Operand} {width : Nat}
    {make : Nat → Operand} (hwidth : shape.width? = some width)
    (hmake : make (operandNumber instructions id token operand % 256 ^ width).toNat = operand)
    (rest : List UInt8) :
    readPlain width make (encodeOperand instructions id token shape operand ++ rest) =
      .ok (.plain operand, rest) := by
  unfold readPlain encodeOperand
  simp only [hwidth, readWord_intBytes, bind, Except.bind, hmake]
  rfl

/-- A displacement is read back as the offset of the target. -/
theorem offset_add_displacement {next : Nat} (hnext : next = startOf instructions (id + 1))
    (target : Option InstructionId) :
    next + displacement instructions id target = targetOffset instructions target := by
  rw [hnext, displacement]
  omega

theorem readOperand_switch {targets : List (Option InstructionId)} (offset place : Nat)
    (rest : List UInt8) (hlength : targets.length < 2 ^ 32)
    (hfits : ∀ target ∈ targets, FitsShape .switch (displacement instructions id target))
    (hnext : place + 4 + 4 * targets.length = startOf instructions (id + 1)) :
    readOperand tokens offset place .switch
        (encodeOperand instructions id token .switch (.switch targets) ++ rest) =
      .ok (.switch (targets.map (targetOffset instructions)), rest) := by
  have hwords := readWords_intBytes (targets.map (displacement instructions id)) rest
  rw [List.length_map] at hwords
  simp only [encodeOperand, OperandShape.width?, Operand.targets, List.append_assoc]
  rw [readOperand, readWord_intBytes, toNat_emod_of_lt hlength]
  simp only [bind, Except.bind, hwords, List.map_map]
  have hoffsets : targets.map ((fun n => ((place + 4 + 4 * targets.length : Nat) : Int) + signed32 n)
        ∘ (fun n : Int => (n % 256 ^ 4).toNat) ∘ displacement instructions id) =
      targets.map (targetOffset instructions) := by
    apply List.map_congr_left
    intro target htarget
    obtain ⟨hlow, hhigh⟩ := hfits target htarget
    simp only [Function.comp, signed32, toInt_int32_ofNat hlow hhigh]
    exact offset_add_displacement hnext target
  rw [hoffsets]
  rfl

theorem readOperand_encodeOperand (h : Encodable tokens instructions id token i)
    (offset place : Nat) (rest : List UInt8)
    (hnext : place + (encodeOperand instructions id token i.code.shape i.operand).length =
      startOf instructions (id + 1)) (hbound : startOf instructions (id + 1) < 2 ^ 32) :
    readOperand tokens offset place i.code.shape
        (encodeOperand instructions id token i.code.shape i.operand ++ rest) =
      .ok (codedOperand instructions i.operand, rest) := by
  obtain ⟨code, operand, _⟩ := i
  obtain ⟨hshape, ⟨hsymbol, htext⟩, htargets, hdisplacements, hindex, hmethod, hsignature⟩ := h
  simp only at *
  generalize code.shape = shape at *
  cases shape with
  | none =>
    cases operand <;> simp [OperandShape.admits] at hshape
    rfl
  | shortTarget =>
    cases operand with
    | target target =>
      obtain ⟨hlow, hhigh⟩ := hdisplacements target List.mem_cons_self
      simp only [encodeOperand, OperandShape.width?, operandNumber, length_intBytes] at hnext ⊢
      rw [readOperand, readWord_intBytes]
      simp only [bind, Except.bind, signed8, toInt_int8_ofNat hlow hhigh]
      rw [offset_add_displacement hnext target]
      rfl
    | _ => simp [OperandShape.admits] at hshape
  | target =>
    cases operand with
    | target target =>
      obtain ⟨hlow, hhigh⟩ := hdisplacements target List.mem_cons_self
      simp only [encodeOperand, OperandShape.width?, operandNumber, length_intBytes] at hnext ⊢
      rw [readOperand, readWord_intBytes]
      simp only [bind, Except.bind, signed32, toInt_int32_ofNat hlow hhigh]
      rw [offset_add_displacement hnext target]
      rfl
    | _ => simp [OperandShape.admits] at hshape
  | switch =>
    cases operand with
    | switch targets =>
      simp only [encodeOperand, OperandShape.width?, Operand.targets, List.length_append,
        length_intBytes, length_flatMap_intBytes, List.length_map] at hnext
      exact readOperand_switch offset place rest (by omega) hdisplacements (by omega)
    | _ => simp [OperandShape.admits] at hshape
  | method =>
    cases operand with
    | method m => exact readToken_intBytes (hmethod m rfl) _ _ _
    | _ => simp [OperandShape.admits] at hshape
  | signature =>
    cases operand with
    | signature s => exact readToken_intBytes (hsignature s rfl) _ _ _
    | _ => simp [OperandShape.admits] at hshape
  | field | typeName | token | text =>
    cases operand with
    | token value =>
      rw [readOperand]
      exact readPlain_encodeOperand rfl (congrArg Operand.token (uint32_ofNat_emod value)) rest
    | symbol name => exact absurd rfl (hsymbol name)
    | text value => exact absurd rfl (htext value)
    | _ => simp [OperandShape.admits] at hshape
  | int32 =>
    cases operand with
    | int32 value =>
      rw [readOperand]
      exact readPlain_encodeOperand rfl (congrArg Operand.int32 (int32_ofNat_emod value)) rest
    | _ => simp [OperandShape.admits] at hshape
  | int8 =>
    cases operand with
    | int8 value =>
      rw [readOperand]
      exact readPlain_encodeOperand rfl (congrArg Operand.int8 (int8_ofNat_emod value)) rest
    | _ => simp [OperandShape.admits] at hshape
  | int64 =>
    cases operand with
    | int64 value =>
      rw [readOperand]
      exact readPlain_encodeOperand rfl (congrArg Operand.int64 (int64_ofNat_emod value)) rest
    | _ => simp [OperandShape.admits] at hshape
  | double =>
    cases operand with
    | double bits =>
      rw [readOperand]
      exact readPlain_encodeOperand rfl (congrArg Operand.double (uint64_ofNat_emod bits)) rest
    | _ => simp [OperandShape.admits] at hshape
  | single =>
    cases operand with
    | single bits =>
      rw [readOperand]
      exact readPlain_encodeOperand rfl (congrArg Operand.single (uint32_ofNat_emod bits)) rest
    | _ => simp [OperandShape.admits] at hshape
  | localVar =>
    cases operand with
    | localVar index =>
      rw [readOperand]
      exact readPlain_encodeOperand rfl
        (congrArg Operand.localVar (uint16_ofNat_emod index.toNat_lt)) rest
    | _ => simp [OperandShape.admits] at hshape
  | shortLocal =>
    cases operand with
    | localVar index =>
      have hlt : index.toNat < 256 := Int.ofNat_lt.1 (hindex (Or.inl rfl))
      rw [readOperand]
      exact readPlain_encodeOperand rfl (congrArg Operand.localVar (uint16_ofNat_emod hlt)) rest
    | _ => simp [OperandShape.admits] at hshape
  | argument =>
    cases operand with
    | argument index =>
      rw [readOperand]
      exact readPlain_encodeOperand rfl
        (congrArg Operand.argument (uint16_ofNat_emod index.toNat_lt)) rest
    | _ => simp [OperandShape.admits] at hshape
  | shortArgument =>
    cases operand with
    | argument index =>
      have hlt : index.toNat < 256 := Int.ofNat_lt.1 (hindex (Or.inr rfl))
      rw [readOperand]
      exact readPlain_encodeOperand rfl (congrArg Operand.argument (uint16_ofNat_emod hlt)) rest
    | _ => simp [OperandShape.admits] at hshape

theorem length_encodeInstruction (h : i.code.shape.admits i.operand) :
    (encodeInstruction instructions id token i).length = i.width := by
  unfold encodeInstruction encodeOperand Instruction.width
  rw [List.length_append, length_encodeOpcode]
  generalize i.code.shape = shape at h
  cases shape with
  | switch =>
    cases hoperand : i.operand with
    | switch targets =>
      simp only [OperandShape.width?, Operand.targets, List.length_append, length_intBytes,
        length_flatMap_intBytes, List.length_map]
    | _ => simp [hoperand, OperandShape.admits] at h
  | _ => simp [OperandShape.width?]

/-- An instruction with its targets given as offsets. -/
def coded (instructions : List Instruction) (id : InstructionId) (i : Instruction) :
    CodedInstruction :=
  ⟨startOf instructions id, i.code, codedOperand instructions i.operand⟩

/-- Reading an instruction undoes writing it, whatever bytes follow. -/
theorem readInstruction_encode (h : Encodable tokens instructions id token i)
    (hid : instructions[id]? = some i) (hsize : codeSize instructions < 2 ^ 32)
    (rest : List UInt8) :
    readInstruction tokens (startOf instructions id)
        (encodeInstruction instructions id token i ++ rest) =
      .ok (coded instructions id i, rest) := by
  have hlength : (encodeInstruction instructions id token i).length = i.width :=
    length_encodeInstruction h.shape
  have hnext := startOf_succ hid
  have hend : startOf instructions (id + 1) ≤ codeSize instructions := by
    rw [← startOf_length]
    exact startOf_mono instructions (List.getElem?_eq_some_iff.1 hid).1
  unfold readInstruction
  rw [encodeInstruction, List.append_assoc, readOpcode_encodeOpcode]
  rw [encodeInstruction, List.length_append] at hlength
  simp only [bind, Except.bind]
  rw [readOperand_encodeOperand h _ _ rest (by simp only [List.length_append]; omega) (by omega)]
  rfl

/-! ## Reading the code stream -/

theorem readCodeFrom_append {offset : Nat} {first rest : List UInt8} {c : CodedInstruction}
    (h : readInstruction tokens offset (first ++ rest) = .ok (c, rest)) :
    readCodeFrom tokens offset (first ++ rest) =
      (readCodeFrom tokens (offset + first.length) rest).map (c :: ·) := by
  have hlength := length_of_readInstruction h
  have hne : ¬ (first ++ rest).isEmpty := by
    intro hempty
    rw [List.isEmpty_iff.1 hempty] at hlength
    exact absurd hlength (Nat.not_lt_zero _)
  rw [readCodeFrom, if_neg hne]
  split
  · next fault hfault => rw [h] at hfault; cases hfault
  · next c' rest' hread =>
    obtain ⟨rfl, rfl⟩ := Prod.mk.inj (Except.ok.inj (h.symm.trans hread))
    rw [List.length_append, Nat.add_sub_cancel]
    cases readCodeFrom tokens (offset + first.length) rest <;> rfl

/-- All instructions can be written. -/
def AllEncodable (tokens : TokenTable) (tokenOf : InstructionId → UInt32)
    (instructions : List Instruction) : Prop :=
  ∀ id i, instructions[id]? = some i → Encodable tokens instructions id (tokenOf id) i

variable {tokenOf : InstructionId → UInt32}

theorem drop_eq_cons {rest : List Instruction} (h : instructions.drop id = i :: rest) :
    instructions[id]? = some i ∧ instructions.drop (id + 1) = rest := by
  constructor
  · rw [← Nat.add_zero id, ← List.getElem?_drop, h]
    rfl
  · rw [← List.tail_drop, h, List.tail_cons]

/-- The induction is on the instructions that are left, which start at `id`. -/
theorem readCodeFrom_encode (h : AllEncodable tokens tokenOf instructions)
    (hsize : codeSize instructions < 2 ^ 32) (rest : List Instruction) (id : InstructionId)
    (hrest : instructions.drop id = rest) :
    readCodeFrom tokens (startOf instructions id) (encodeFrom instructions tokenOf id rest) =
      .ok (rest.mapIdx fun k => coded instructions (id + k)) := by
  induction rest generalizing id with
  | nil => rw [encodeFrom, readCodeFrom]; rfl
  | cons i rest ih =>
    obtain ⟨hid, hdrop⟩ := drop_eq_cons hrest
    have hread := readInstruction_encode (h id i hid) hid hsize
      (encodeFrom instructions tokenOf (id + 1) rest)
    rw [encodeFrom, readCodeFrom_append hread, length_encodeInstruction (h id i hid).shape,
      ← startOf_succ hid, ih (id + 1) hdrop, List.mapIdx_cons]
    simp only [Except.map, Nat.add_zero, Nat.add_assoc, Nat.add_comm 1]

theorem length_encodeFrom (h : AllEncodable tokens tokenOf instructions) (rest : List Instruction)
    (id : InstructionId) (hrest : instructions.drop id = rest) :
    (encodeFrom instructions tokenOf id rest).length = codeSize rest := by
  induction rest generalizing id with
  | nil => rfl
  | cons i rest ih =>
    obtain ⟨hid, hdrop⟩ := drop_eq_cons hrest
    rw [encodeFrom, List.length_append, length_encodeInstruction (h id i hid).shape,
      ih (id + 1) hdrop]
    rfl

theorem readCode_encode (h : AllEncodable tokens tokenOf instructions)
    (hsize : codeSize instructions < 2 ^ 32) :
    readCode tokens (encode tokenOf instructions) =
      .ok (instructions.mapIdx (coded instructions)) := by
  have hread := readCodeFrom_encode h hsize instructions 0 rfl
  simp only [Nat.zero_add] at hread
  exact hread

/-! ## Naming the targets -/

/-- Only one instruction starts at an offset. -/
theorem findStart?_coded {target : Option InstructionId}
    (h : ∃ j < instructions.length, target = some j) :
    findStart? (instructions.mapIdx (coded instructions)) (targetOffset instructions target) =
      target := by
  obtain ⟨j, hj, rfl⟩ := h
  unfold findStart?
  rw [List.findIdx?_eq_some_iff_getElem]
  refine ⟨by rwa [List.length_mapIdx], ?_, ?_⟩
  · rw [List.getElem_mapIdx]
    exact beq_self_eq_true _
  · intro k hk hsame
    rw [List.getElem_mapIdx, beq_iff_eq] at hsame
    have hlt := startOf_lt hk (Nat.lt_trans hk hj)
    exact absurd (Int.ofNat.inj hsame) (Nat.ne_of_lt hlt)

theorem link_codedOperand {operand : Operand}
    (h : ∀ target ∈ operand.targets, ∃ j < instructions.length, target = some j) :
    (codedOperand instructions operand).link (instructions.mapIdx (coded instructions)) =
      operand := by
  cases operand with
  | target target => exact congrArg Operand.target (findStart?_coded (h target List.mem_cons_self))
  | switch targets =>
    rw [codedOperand, CodedOperand.link, List.map_map]
    apply congrArg Operand.switch
    have hid : targets.map _ = targets.map id :=
      List.map_congr_left fun target htarget => findStart?_coded (h target htarget)
    rwa [List.map_id] at hid
  | _ => rfl

theorem link_coded (h : AllEncodable tokens tokenOf instructions) :
    link (instructions.mapIdx (coded instructions)) = layout 0 instructions := by
  apply List.ext_getElem?
  intro id
  rw [link, List.getElem?_map, List.getElem?_mapIdx, getElem?_layout, Option.map_map]
  cases hid : instructions[id]? with
  | none => rfl
  | some i =>
    have hlink := link_codedOperand (h id i hid).targets
    simp only [Option.map_some, Function.comp, coded, hlink, Nat.zero_add]

/-! ## Headers -/

theorem readHeader_tinyHeader {size : Nat} (h : size < 64) (rest : List UInt8) :
    readHeader (tinyHeader size ++ rest) = .ok ⟨1, size, false⟩ := by
  have htiny : ∀ size < 64, UInt8.ofNat (size * 4 + 2) &&& 0x3 = 0x2 ∧
      (UInt8.ofNat (size * 4 + 2)).toNat / 4 = size := by
    decide
  obtain ⟨hformat, hsize⟩ := htiny size h
  rw [tinyHeader, List.singleton_append, readHeader, if_pos hformat, hsize]

theorem readHeader_fatHeader {flags : UInt16} (hformat : flags &&& 0x3 = 0x3)
    (hsections : flags &&& 0x8 = 0) (hsize : flags >>> 12 = 3) (maxStack : UInt16) {size : Nat}
    (h : size < 2 ^ 32) (locals : UInt32) (rest : List UInt8) :
    readHeader (fatHeader flags maxStack size locals ++ rest) = .ok ⟨12, size, false⟩ := by
  have hbytes : ∃ second, intBytes 2 flags.toNat = [flags.toUInt8, second] := by
    refine ⟨UInt8.ofNat (flags.toNat / 256), ?_⟩
    rw [intBytes, toNat_emod_of_lt flags.toNat_lt]
    rfl
  obtain ⟨second, hbytes⟩ := hbytes
  -- The format and the sections are read off the first byte, the size off both.
  have hformat8 : flags.toUInt8 &&& 0x3 = 0x3 := by
    have h8 := congrArg UInt16.toUInt8 hformat
    rwa [UInt16.toUInt8_and] at h8
  have hsections8 : flags.toUInt8 &&& 0x8 = 0 := by
    have h8 := congrArg UInt16.toUInt8 hsections
    rwa [UInt16.toUInt8_and] at h8
  have hstart : flags.toNat / 0x1000 = 3 := by
    have hnat := congrArg UInt16.toNat hsize
    rwa [UInt16.toNat_shiftRight, Nat.shiftRight_eq_div_pow] at hnat
  have hcode : ((size : Int) % 256 ^ 4).toNat = size := toNat_emod_of_lt h
  have hflags := readWord_intBytes 2 flags.toNat (intBytes 2 maxStack.toNat ++ (intBytes 4 size ++
    (intBytes 4 locals.toNat ++ rest)))
  rw [hbytes, toNat_emod_of_lt flags.toNat_lt] at hflags
  simp only [fatHeader, List.append_assoc]
  rw [hbytes, List.cons_append, readHeader, if_neg (by rw [hformat8]; decide), if_pos hformat8]
  rw [List.cons_append] at hflags
  simp only [hflags, readWord_intBytes, bind, Except.bind, hcode, hstart, hsections8]
  rfl

theorem slice_append {front code : List UInt8} {start size : Nat} (hstart : front.length = start)
    (hsize : code.length = size) (rest : List UInt8) :
    slice start size (front ++ code ++ rest) = .ok code := by
  subst hstart hsize
  unfold slice
  rw [if_pos (by simp only [List.length_append]; omega), List.append_assoc, List.drop_left,
    List.take_left]

/-- What stands between the header and the rest is read as the code, if no sections follow. -/
theorem read_append {header : List UInt8} {start : Nat} (hstart : header.length = start)
    (h : AllEncodable tokens tokenOf instructions) (hsize : codeSize instructions < 2 ^ 32)
    (trailing : List UInt8)
    (hheader : ∀ rest, readHeader (header ++ rest) = .ok ⟨start, codeSize instructions, false⟩)
    (name : String) :
    read tokens name (header ++ encode tokenOf instructions ++ trailing) =
      .ok (Body.ofInstructions name instructions []) := by
  have hslice : slice start (codeSize instructions)
      (header ++ encode tokenOf instructions ++ trailing) = .ok (encode tokenOf instructions) :=
    slice_append hstart (length_encodeFrom h instructions 0 rfl) trailing
  have hread := hheader (encode tokenOf instructions ++ trailing)
  rw [← List.append_assoc] at hread
  unfold read
  simp only [hread, hslice, readCode_encode h hsize, bind, Except.bind]
  rw [link_coded h]
  rfl

/-- **Reading undoes encoding.**  Behind a tiny header, or a fat one without sections, encoded code is
read as the body of the instructions that were encoded, whatever bytes follow it. -/
theorem read_encoded_body (tokens : TokenTable) (tokenOf : InstructionId → UInt32) (name : String)
    (instructions : List Instruction) (trailing : List UInt8)
    (h : AllEncodable tokens tokenOf instructions) :
    (codeSize instructions < 64 →
      read tokens name
          (tinyHeader (codeSize instructions) ++ encode tokenOf instructions ++ trailing) =
        .ok (Body.ofInstructions name instructions [])) ∧
    ∀ (flags maxStack : UInt16) (locals : UInt32), codeSize instructions < 2 ^ 32 →
      flags &&& 0x3 = 0x3 → flags &&& 0x8 = 0 → flags >>> 12 = 3 →
      read tokens name (fatHeader flags maxStack (codeSize instructions) locals ++
          encode tokenOf instructions ++ trailing) =
        .ok (Body.ofInstructions name instructions []) := by
  refine ⟨?_, ?_⟩
  · intro htiny
    exact read_append rfl h (by omega) trailing (readHeader_tinyHeader htiny) name
  · intro flags maxStack locals hsize hformat hsections hstart
    refine read_append ?_ h hsize trailing
      (readHeader_fatHeader hformat hsections hstart maxStack hsize locals) name
    simp [fatHeader]

/-- A method that takes nothing and returns nothing. -/
def pause : MethodRef := ⟨"Clock", "Pause", { parameters := [], returnType := none }⟩

/-- A branch over a call, a switch back to both, and the largest short index. -/
def switchBack : List Instruction :=
  [{ code := .brS, operand := .target (some 2) },
    { code := .call, operand := .method pause },
    { code := .switch, operand := .switch [some 0, some 1] },
    { code := .stlocS, operand := .localVar 255 },
    { code := .ret }]

/-- The method stands for every token. -/
def pauseTokens : TokenTable := ⟨fun _ => some pause, fun _ => none, fun _ => none⟩

/-- The code has 23 bytes, so it fits behind both headers; here bytes follow it too. -/
theorem read_switchBack :
    read pauseTokens "M" (tinyHeader 23 ++ encode (fun _ => 0x0A000001) switchBack ++ [0xFF]) =
        .ok (Body.ofInstructions "M" switchBack []) ∧
      read pauseTokens "M" (fatHeader 0x3013 8 23 0 ++ encode (fun _ => 0x0A000001) switchBack ++
          [0xFF]) =
        .ok (Body.ofInstructions "M" switchBack []) := by
  have hencodable : AllEncodable pauseTokens (fun _ => 0x0A000001) switchBack := by
    intro id i hid
    match id, hid with
    | 0, rfl | 2, rfl | 3, rfl | 4, rfl =>
      exact ⟨rfl, ⟨nofun, nofun⟩, by decide, by decide, by decide, nofun, nofun⟩
    | 1, rfl =>
      exact ⟨rfl, ⟨nofun, nofun⟩, by decide, by decide, by decide,
        fun _ hm => congrArg some (Operand.method.inj hm), nofun⟩
  obtain ⟨htiny, hfat⟩ := read_encoded_body pauseTokens _ "M" switchBack [0xFF] hencodable
  exact ⟨htiny (by decide), hfat 0x3013 8 0 (by decide) (by decide) (by decide) (by decide)⟩

end PushGuard.Binary
