import Mathlib.Algebra.Order.Ring.Int
import PushGuard.Listing
import PushGuard.Proofs.CalleeText
import PushGuard.Proofs.IntegerOperands
import PushGuard.Proofs.OpcodeTable

/-!
# Reading operands back

An operand that a listing can spell is read back from its text (`readOperand_textWith`).  A raw token
would be read as a name, and the text of a method need not be one that is read, so `Operand.Spellable`
says for which operands this holds; floating point numbers are left out.

The labels of branches are not operands yet.  Together with its mnemonic the operand is read as the
draft of an instruction (`readInstruction_text`).
-/

namespace PushGuard

open Text

/-- A string may hold this character: it is shown as it is, or has a short escape. -/
def isSpellable (c : Char) : Bool :=
  (0x20 ≤ c.toNat && c.toNat ≤ 0x7E) || c ∈ ['\n', '\t', '\r', '\x00']

/-- Listings can spell the operand.  Its targets are among the first `size` instructions. -/
def Operand.Spellable (size : Nat) : Operand → Prop
  | .single _ | .double _ | .token _ => False
  | .int64 value => value ≠ Int64.minValue
  | .text value => value.toList.all isSpellable = true
  | .symbol name => name ≠ "" ∧ trim name.toList = name.toList
  | .method m => Listing.readMethod (trim ((Operand.method m).textWith targetText).toList) = .ok m
  | .signature s =>
    Listing.readSignature (trim ((Operand.signature s).textWith targetText).toList) = .ok s
  | operand => ∀ target ∈ operand.targets, ∃ id < size, target = some id

instance (size : Nat) : (operand : Operand) → Decidable (operand.Spellable size)
  | .single _ | .double _ | .token _ => inferInstanceAs (Decidable False)
  | .int64 value => inferInstanceAs (Decidable (value ≠ Int64.minValue))
  | .text value => inferInstanceAs (Decidable (value.toList.all isSpellable = true))
  | .symbol name => inferInstanceAs (Decidable (name ≠ "" ∧ trim name.toList = name.toList))
  | .method _ | .signature _ => inferInstanceAs (Decidable (_ = Except.ok _))
  | .none | .int8 _ | .int32 _ | .localVar _ | .argument _ =>
    inferInstanceAs (Decidable (∀ target ∈ [], ∃ id < size, target = some id))
  | .target target => inferInstanceAs (Decidable (∀ t ∈ [target], ∃ id < size, t = some id))
  | .switch targets => inferInstanceAs (Decidable (∀ t ∈ targets, ∃ id < size, t = some id))

theorem Operand.Spellable.targets {size : Nat} {operand : Operand} (h : operand.Spellable size) :
    ∀ target ∈ operand.targets, ∃ id < size, target = some id := by
  cases operand with
  | target target => exact h
  | switch targets => exact h
  | _ => exact nofun

namespace Listing

/-! ## Strings -/

theorem unescape_escape {c d : Char} (hd : escaped? d = some c) (rest : List Char) :
    unescape ('\\' :: d :: rest) = (unescape rest).map (c :: ·) := by
  rw [unescape, hd]
  cases unescape rest <;> rfl

theorem unescape_plain {c : Char} (hc : c ≠ '\\') (rest : List Char) :
    unescape (c :: rest) = (unescape rest).map (c :: ·) := by
  rw [unescape.eq_4 _ _ hc]
  cases unescape rest <;> rfl

/-- Every escape stands for the character it was made of. -/
theorem unescape_quoteChar {c : Char} (h : isSpellable c = true) (rest : List Char) :
    unescape ((quoteChar c).toList ++ rest) = (unescape rest).map (c :: ·) := by
  have hescape : ∀ d, escaped? d = some c →
      unescape ('\\' :: d :: rest) = (unescape rest).map (c :: ·) :=
    fun d hd => unescape_escape hd rest
  unfold quoteChar
  split
  · next hc => exact hescape '0' (hc ▸ rfl)
  split
  · next hc => exact hescape 't' (hc ▸ rfl)
  split
  · next hc => exact hescape 'r' (hc ▸ rfl)
  split
  · next hc => exact hescape 'n' (hc ▸ rfl)
  split
  · next hc => exact hc ▸ hescape c (by rw [hc]; rfl)
  split
  · next hc => exact hc ▸ hescape c (by rw [hc]; rfl)
  next hnul htab hreturn hfeed _ hbackslash =>
    have hplain : 0x20 ≤ c.toNat ∧ c.toNat ≤ 0x7E := by
      simpa [isSpellable, hnul, htab, hreturn, hfeed] using h
    have hshown : isUnprintable c = false := by
      simp only [isUnprintable, Bool.or_eq_false_iff, Bool.and_eq_false_iff, decide_eq_false_iff_not]
      omega
    rw [if_neg (by simp [hshown]), String.toList_ofList, List.singleton_append,
      unescape_plain hbackslash]

theorem unescape_quoted {s : List Char} (h : ∀ c ∈ s, isSpellable c) :
    unescape ((s.map quoteChar).flatMap String.toList) = .ok s := by
  induction s with
  | nil => rfl
  | cons c s ih =>
    rw [List.map_cons, List.flatMap_cons, unescape_quoteChar (h c List.mem_cons_self),
      ih fun c hc => h c (List.mem_cons_of_mem _ hc)]
    rfl

theorem toList_quote (s : String) : (quote s).toList =
    ['"'] ++ ((s.toList.map quoteChar).flatMap String.toList ++ ['"']) := by
  rw [quote, String.toList_append, String.toList_append, String.toList_join, List.append_assoc]
  rfl

theorem readString_quote {s : String} (h : ∀ c ∈ s.toList, isSpellable c) :
    readString (quote s).toList = .ok s := by
  unfold readString
  rw [toList_quote, after?_append, Option.bind_some, before?_append]
  simp only [unescape_quoted h, bind, Except.bind]
  rw [String.ofList_toList]
  rfl

/-! ## Operands -/

theorem isBlank_of_mem_signedDecimal (n : Int) :
    ∀ c ∈ (signedDecimal n).toList, isBlank c = false := by
  have hdigits : ∀ k, ∀ c ∈ (decimal k).toList, isBlank c = false := by
    intro k
    rw [decimal, String.toList_ofList]
    exact forall_mem_toDigits (by decide) k
  cases n with
  | ofNat k => exact hdigits k
  | negSucc k =>
    intro c hc
    rw [signedDecimal, String.toList_append, List.mem_append] at hc
    rcases hc with hc | hc
    · obtain rfl := List.mem_singleton.1 hc
      rfl
    · exact hdigits _ c hc

theorem signedDecimal_ne_nil (n : Int) : (signedDecimal n).toList ≠ [] := by
  cases n <;> simp [signedDecimal, decimal]

theorem takeConvention_nil (convention : Convention) :
    takeConvention convention [] = (convention, []) := by
  rw [takeConvention]
  rfl

theorem ne_nil_of_readMethod {text : List Char} {m : MethodRef} (h : readMethod text = .ok m) :
    text ≠ [] := by
  rintro rfl
  rw [readMethod, show trim [] = [] from rfl, takeConvention_nil] at h
  cases h

theorem ne_nil_of_readSignature {text : List Char} {s : Signature}
    (h : readSignature text = .ok s) : text ≠ [] := by
  rintro rfl
  rw [readSignature, show trim [] = [] from rfl, takeConvention_nil] at h
  cases h

/-- The blank in front of an operand is trimmed off. -/
theorem trim_space_append {s : String} (h : trim s.toList = s.toList) :
    trim (" " ++ s).toList = s.toList := by
  rw [String.toList_append]
  exact (trim_cons_of_isBlank rfl _).trans h

theorem trim_quote (s : String) : trim (quote s).toList = (quote s).toList := by
  rw [toList_quote]
  exact trim_enclosed rfl rfl _

/-- The operand is made of what its text says.  Labels are left to the instruction. -/
theorem readOperand_textWith {shape : OperandShape} {operand : Operand} {size : Nat}
    (hshape : shape.admits operand) (h : operand.Spellable size) (hsome : shape ≠ .none)
    (hlabels : shape.isTarget = false) (targetText : Option InstructionId → String) :
    readOperand shape (trim (operand.textWith targetText).toList) = .ok operand ∧
      trim (operand.textWith targetText).toList ≠ [] := by
  have hinteger : ∀ {n : Int}, operand.number? = some n → n ≠ -2 ^ 63 →
      readOperand shape (trim (operand.textWith targetText).toList) = .ok operand ∧
        trim (operand.textWith targetText).toList ≠ [] := by
    intro n hn hother
    have htrim : trim (" " ++ signedDecimal n).toList = (signedDecimal n).toList :=
      trim_space_append (trim_eq_self_of_forall (isBlank_of_mem_signedDecimal n))
    rw [Operand.textWith_of_number? hn, htrim,
      readOperand_of_denotes hshape hn (denotes_signedDecimal n), if_neg hother]
    exact ⟨rfl, signedDecimal_ne_nil n⟩
  cases shape with
  | none => exact absurd rfl hsome
  | target | shortTarget | switch => cases hlabels
  | method =>
    cases operand with
    | method m =>
      exact ⟨congrArg (Except.map Operand.method) h, ne_nil_of_readMethod h⟩
    | _ => simp [OperandShape.admits] at hshape
  | signature =>
    cases operand with
    | signature s =>
      exact ⟨congrArg (Except.map Operand.signature) h, ne_nil_of_readSignature h⟩
    | _ => simp [OperandShape.admits] at hshape
  | field | typeName | token =>
    cases operand with
    | token value => exact h.elim
    | symbol name =>
      rw [Operand.textWith, trim_space_append h.2]
      refine ⟨?_, fun hnil => h.1 (String.toList_eq_nil_iff.1 hnil)⟩
      rw [readOperand, String.ofList_toList]
    | _ => simp [OperandShape.admits] at hshape
  | text =>
    cases operand with
    | token value => exact h.elim
    | text value =>
      rw [Operand.textWith, trim_space_append (trim_quote value)]
      have hread := readString_quote (List.all_eq_true.1 h)
      exact ⟨congrArg (Except.map Operand.text) hread, by simp [quote]⟩
    | _ => simp [OperandShape.admits] at hshape
  | int32 =>
    cases operand with
    | int32 value => exact hinteger rfl (by have := value.le_toInt; omega)
    | _ => simp [OperandShape.admits] at hshape
  | int8 =>
    cases operand with
    | int8 value => exact hinteger rfl (by have := value.le_toInt; omega)
    | _ => simp [OperandShape.admits] at hshape
  | int64 =>
    cases operand with
    | int64 value => exact hinteger rfl fun hleast => h (Int64.toInt_inj.1 hleast)
    | _ => simp [OperandShape.admits] at hshape
  | double | single =>
    cases operand with
    | double bits | single bits => exact h.elim
    | _ => simp [OperandShape.admits] at hshape
  | localVar | shortLocal =>
    cases operand with
    | localVar index => exact hinteger rfl (by omega)
    | _ => simp [OperandShape.admits] at hshape
  | argument | shortArgument =>
    cases operand with
    | argument index => exact hinteger rfl (by omega)
    | _ => simp [OperandShape.admits] at hshape

/-! ## Labels -/

/-- A label as lines have it in front: letters, digits and a few signs. -/
def IsLabel (label : String) : Prop := label ≠ "" ∧ ∀ c ∈ label.toList, isLabelChar c = true

theorem isBlank_of_isLabelChar {c : Char} (h : isLabelChar c = true) : isBlank c = false := by
  have hrange : 0x24 ≤ c.toNat ∧ c.toNat ≤ 0x7A := by
    unfold isLabelChar Char.isAlphanum Char.isAlpha Char.isUpper Char.isLower Char.isDigit at h
    simp only [Bool.or_eq_true, Bool.and_eq_true, decide_eq_true_eq, beq_iff_eq,
      UInt32.le_iff_toNat_le] at h
    rcases h with ((((h | h) | h) | rfl) | rfl) | rfl
    · change 65 ≤ c.toNat ∧ c.toNat ≤ 90 at h
      omega
    · change 97 ≤ c.toNat ∧ c.toNat ≤ 122 at h
      omega
    · change 48 ≤ c.toNat ∧ c.toNat ≤ 57 at h
      omega
    all_goals decide
  simp only [isBlank, Bool.or_eq_false_iff, Bool.and_eq_false_iff, decide_eq_false_iff_not,
    beq_eq_false_iff_ne]
  omega

theorem ne_of_isLabelChar {c d : Char} (hc : isLabelChar c = true) (hd : isLabelChar d = false) :
    c ≠ d := by
  rintro rfl
  rw [hd] at hc
  cases hc

/-- No bracket in a label hides a comma behind it. -/
theorem bracketStep_of_isLabelChar {c : Char} (h : isLabelChar c = true) : bracketStep c = 0 := by
  have hnot : ∀ d, isLabelChar d = false → c ≠ d := fun d hd => ne_of_isLabelChar h hd
  rw [bracketStep, if_neg (by simp [hnot '<' rfl, hnot '[' rfl, hnot '(' rfl]),
    if_neg (by simp [hnot '>' rfl, hnot ']' rfl, hnot ')' rfl])]

theorem IsLabel.trim {label : String} (h : IsLabel label) : trim label.toList = label.toList :=
  trim_eq_self_of_forall fun c hc => isBlank_of_isLabelChar (h.2 c hc)

/-- Labels are told apart in a list like parameters. -/
theorem IsLabel.isParameter {label : String} (h : IsLabel label) : IsParameter label where
  nonempty := h.1
  trimmed := h.trim
  closed := bracketDepth_eq_zero fun c hc => bracketStep_of_isLabelChar (h.2 c hc)
  commas _ _ hk := absurd rfl (ne_of_isLabelChar (h.2 _ (List.mem_of_getElem? hk)) rfl)

/-! ## Instructions -/

/-- The instruction with its targets given by their labels. -/
def draft (labelText : Option InstructionId → String) (i : Instruction) : Draft String :=
  match i.operand with
  | .target target => .branch i.code (labelText target)
  | .switch targets => .switch (targets.map labelText)
  | operand => .plain i.code operand

/-- A blank stands between a mnemonic and its operand. -/
theorem textWith_eq_cons (operand : Operand) (hsome : operand ≠ .none)
    (labelText : Option InstructionId → String) :
    ∃ s, (operand.textWith labelText).toList = ' ' :: s := by
  cases operand with
  | none => exact absurd rfl hsome
  | switch targets =>
    exact ⟨_, by rw [Operand.textWith, String.append_assoc, String.toList_append]; rfl⟩
  | method m =>
    rw [Operand.textWith, String.toList_append]
    split <;> exact ⟨_, rfl⟩
  | _ => exact ⟨_, by rw [Operand.textWith, String.toList_append]; rfl⟩

theorem isBlank_head?_textWith (operand : Operand) (labelText : Option InstructionId → String) :
    ∀ c ∈ (operand.textWith labelText).toList.head?, isBlank c = true := by
  intro c hc
  by_cases hsome : operand = .none
  · rw [hsome] at hc
    cases hc
  · obtain ⟨s, hs⟩ := textWith_eq_cons operand hsome labelText
    rw [hs] at hc
    cases hc
    rfl

/-- A mnemonic ends where its operand begins. -/
theorem takeWhile_mnemonic (code : Opcode) {text : List Char}
    (htext : ∀ c ∈ text.head?, isBlank c = true) :
    (code.mnemonic.toList ++ text).takeWhile (fun c => !isBlank c) = code.mnemonic.toList ∧
      (code.mnemonic.toList ++ text).dropWhile (fun c => !isBlank c) = text := by
  obtain ⟨c, s, hmnemonic, -, hblank⟩ := code.mnemonic_spelling
  exact cut_at_blank (hmnemonic ▸ hblank) htext

/-- The labels of a switch stand between parentheses. -/
theorem trim_textWith_switch (targets : List (Option InstructionId))
    (labelText : Option InstructionId → String) :
    trim ((Operand.switch targets).textWith labelText).toList =
      ['('] ++ ((String.intercalate ", " (targets.map labelText)).toList ++ [')']) := by
  have htext : ((Operand.switch targets).textWith labelText).toList =
      ' ' :: (['('] ++ ((String.intercalate ", " (targets.map labelText)).toList ++ [')'])) := by
    rw [Operand.textWith, String.toList_append, String.toList_append, List.append_assoc]
    rfl
  rw [htext, trim_cons_of_isBlank rfl]
  exact trim_enclosed rfl rfl _

/-- Reading the text of an instruction gives its draft. -/
theorem readInstruction_text {i : Instruction} {size : Nat}
    {labelText : Option InstructionId → String} (hshape : i.code.shape.admits i.operand)
    (h : i.operand.Spellable size)
    (hlabels : ∀ target ∈ i.operand.targets, IsLabel (labelText target)) :
    readInstruction (i.code.mnemonic.toList ++ (i.operand.textWith labelText).toList) =
      .ok (draft labelText i) := by
  obtain ⟨htake, hdrop⟩ := takeWhile_mnemonic i.code (isBlank_head?_textWith i.operand labelText)
  unfold readInstruction draft
  simp only [htake, hdrop, String.ofList_toList, Opcode.ofMnemonic?_mnemonic]
  rcases OperandShape.admits_cases hshape with ⟨hnone, hoperand⟩ | ⟨target, htarget, hoperand⟩ |
    ⟨targets, hswitch, hoperand⟩ | ⟨⟨hnone, htarget⟩, hnotTarget, hnotSwitch⟩
  · rw [hoperand, if_pos hnone]
    rfl
  · have hlabel := hlabels target (by rw [hoperand]; exact List.mem_cons_self)
    have hne : ¬ (labelText target).toList.isEmpty = true := fun hempty =>
      hlabel.1 (String.toList_eq_nil_iff.1 (List.isEmpty_iff.1 hempty))
    have hshapes : i.code.shape ≠ .none ∧ i.code.shape ≠ .switch ∧ i.code.shape.isTarget = true := by
      rcases htarget with hs | hs <;> rw [hs] <;> decide
    rw [hoperand, Operand.textWith, trim_space_append hlabel.trim, if_neg hshapes.1, if_neg hne,
      if_neg hshapes.2.1, if_pos hshapes.2.2, String.ofList_toList]
  · have hcut : splitTopLevel (String.intercalate ", " (targets.map labelText)).toList =
        (targets.map labelText).map String.toList := by
      apply splitTopLevel_intercalate
      intro label hlabel
      obtain ⟨target, htarget, rfl⟩ := List.mem_map.1 hlabel
      exact (hlabels target (by rw [hoperand]; exact htarget)).isParameter
    rw [hoperand, trim_textWith_switch, after?_append, Option.bind_some, before?_append, hswitch,
      if_neg (by decide), if_neg (by simp), if_pos rfl]
    simp only [hcut, map_ofList_toList]
  · obtain ⟨hread, hne⟩ := readOperand_textWith hshape h hnone htarget labelText
    have hswitch : i.code.shape ≠ .switch := by
      intro hs
      rw [hs] at htarget
      cases htarget
    rw [if_neg hnone, if_neg (by simpa using hne), if_neg hswitch, if_neg (by simp [htarget]), hread]
    show Except.ok (Draft.plain i.code i.operand) = _
    split
    · next target htarget => exact absurd htarget (hnotTarget target)
    · next targets htargets => exact absurd htargets (hnotSwitch targets)
    · rfl

end Listing

end PushGuard
