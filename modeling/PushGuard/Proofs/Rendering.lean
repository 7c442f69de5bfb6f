import PushGuard.Proofs.BlockLines
import PushGuard.Proofs.OperandText

/-!
# Reading a rendered body

A body is rendered as a listing: its name, its handlers, then its instructions, each under the name
of its offset.  Reading that listing gives the body again (`read_listing`).

The lines are followed one by one.  `Block.Follows` says how much of the body a block holds after
some of the lines; a handler's line and an instruction's line each take it one step further, and a
block that holds all of the body is finished to the body itself (`Follows.finish`).
-/

namespace PushGuard

open Text

/-- The text of the instruction with a given spelling of its targets. -/
def Instruction.textWith (targetText : Option InstructionId → String) (i : Instruction) : String :=
  offsetText i.offset.toNat ++ ": " ++ i.code.mnemonic ++ i.operand.textWith targetText

example (i : Instruction) : i.text = i.textWith targetText := rfl

theorem Instruction.textWith_eq_cons (i : Instruction)
    (targetText : Option InstructionId → String) :
    ∃ rest, (i.textWith targetText).toList = 'I' :: rest := by
  rw [textWith, offsetText, String.toList_append, String.toList_append, String.toList_append,
    String.toList_append]
  exact ⟨_, rfl⟩

/-- The directive that registers a handler of this kind. -/
def HandlerKind.directive : HandlerKind → String
  | typed => ".catch"
  | filter => ".filter"
  | cleanup => ".finally"
  | fault => ".fault"

namespace Body

/-- The name of an instruction is that of its offset. -/
def label (b : Body) (id : InstructionId) : String := offsetText ((b.offset? id).getD 0).toNat

def labelText (b : Body) : Option InstructionId → String
  | some id => b.label id
  | none => targetText none

/-- The labels of a handler; that of its filter, if it has one, comes before its own. -/
def handlerLabels (b : Body) (h : Handler) : List String :=
  (h.filterStart.map b.label).toList ++ [b.labelText h.handlerStart]

def handlerLine (b : Body) (h : Handler) : String :=
  String.intercalate " " (h.kind.directive :: b.handlerLabels h)

def listingLines (b : Body) : List String :=
  (".method " ++ b.name) :: (b.handlers.map b.handlerLine ++
    (b.instructions.map (Instruction.textWith b.labelText) ++ [".end"]))

theorem mem_listingLines {b : Body} {line : String} :
    line ∈ b.listingLines ↔ line = ".method " ++ b.name ∨ (∃ h ∈ b.handlers, b.handlerLine h = line) ∨
      (∃ i ∈ b.instructions, i.textWith b.labelText = line) ∨ line = ".end" := by
  simp only [listingLines, List.mem_cons, List.mem_append, List.mem_map, List.not_mem_nil, or_false]

/-- The body as a listing. -/
def listing (b : Body) : String := String.intercalate "\n" b.listingLines

end Body

/-- Listings can spell the handler: it is known only by where it and its filter start. -/
def Handler.Spellable (size : Nat) (h : Handler) : Prop :=
  ∃ start < size, ∃ filter : Option InstructionId,
    h = { kind := h.kind, handlerStart := some start, filterStart := filter } ∧
      (filter.isSome ↔ h.kind = .filter) ∧ ∀ id ∈ filter, id < size

/-- Listings can spell the body.  A line that a comment or a blank at its end would change is not
read as it stands. -/
structure Body.Spellable (b : Body) : Prop where
  name : b.name ≠ "" ∧ trim b.name.toList = b.name.toList
  offsets : ∀ id < b.size, startOf b.instructions id < 2 ^ 32
  shapes : ∀ i ∈ b.instructions, i.code.shape.admits i.operand
  operands : ∀ i ∈ b.instructions, i.operand.Spellable b.size
  handlers : ∀ h ∈ b.handlers, h.Spellable b.size
  lines : ∀ line ∈ b.listingLines, Listing.stripComment .outside line.toList = line.toList ∧
    trim line.toList = line.toList ∧ '\n' ∉ line.toList

/-! ## Labels -/

namespace Body

variable {b : Body}

theorem offset_of_relaid (h : b.relaid = b) {id : InstructionId} {i : Instruction}
    (hi : b.get? id = some i) : i.offset = UInt32.ofNat (startOf b.instructions id) := by
  rw [← h] at hi
  rw [offset_ofInstructions hi]
  exact congrArg (fun b : Body => UInt32.ofNat (startOf b.instructions id)) h

/-- As far as offsets go, labels name the places where instructions start. -/
theorem label_eq (hlaid : b.relaid = b) (hb : b.Spellable) {id : InstructionId}
    (hid : id < b.size) : b.label id = offsetText (startOf b.instructions id) := by
  have hget : b.get? id = some (b.instructions[id]) := List.getElem?_eq_getElem hid
  have hoffset : (UInt32.ofNat (startOf b.instructions id)).toNat = startOf b.instructions id :=
    UInt32.toNat_ofNat_of_lt' (hb.offsets id hid)
  rw [label, offset?, hget, Option.map_some, Option.getD_some, offset_of_relaid hlaid hget, hoffset]

theorem label_inj (hlaid : b.relaid = b) (hb : b.Spellable) {id id' : InstructionId}
    (hid : id < b.size) (hid' : id' < b.size) (h : b.label id = b.label id') : id = id' := by
  rw [label_eq hlaid hb hid, label_eq hlaid hb hid'] at h
  have hchars := congrArg String.toList h
  rw [offsetText, offsetText, String.toList_append, String.toList_append] at hchars
  have hhex := hex_injective 4 (String.toList_inj.1 (List.append_cancel_left hchars))
  exact startOf_injOn hid hid' hhex

theorem isLabel_label (b : Body) (id : InstructionId) : Listing.IsLabel (b.label id) := by
  unfold label offsetText
  refine ⟨?_, ?_⟩
  · intro hempty
    have hchars := congrArg String.toList hempty
    rw [String.toList_append] at hchars
    cases hchars
  · intro c hc
    rw [String.toList_append, List.mem_append] at hc
    rcases hc with hc | hc
    · have hstart : "IL_".toList.all Listing.isLabelChar = true := by decide
      exact List.all_eq_true.1 hstart c hc
    · exact forall_mem_hex (p := fun c => Listing.isLabelChar c = true) (by decide) _ _ c hc

end Body

namespace Listing

variable {b : Body}

/-! ## One line -/

/-- What reading a handler's line gives. -/
def handlerDraft (b : Body) (h : Handler) : HandlerDraft String :=
  ⟨h.kind, b.labelText h.handlerStart, h.filterStart.map b.label⟩

theorem splitLabel?_append {label : String} (h : IsLabel label) {rest : List Char}
    (hrest : rest.head? ≠ some ':') : splitLabel? (label.toList ++ ':' :: rest) = some (label, rest) := by
  have hcolon : ':' ∉ label.toList := fun hmem => ne_of_isLabelChar (h.2 ':' hmem) rfl rfl
  obtain ⟨htake, hdrop⟩ := cut_at_first hcolon rest
  have hlabel : ¬ (label.toList.isEmpty || !label.toList.all isLabelChar ||
      rest.head? == some ':') = true := by
    simp only [Bool.or_eq_true, Bool.not_eq_true', List.isEmpty_iff, String.toList_eq_nil_iff,
      List.all_eq_false, beq_iff_eq, not_or, not_exists, not_and, not_not]
    exact ⟨⟨h.1, h.2⟩, hrest⟩
  unfold splitLabel?
  simp only [htake, hdrop, if_neg hlabel, String.ofList_toList]

theorem splitLabel?_eq_none {line : List Char} (h : ':' ∉ line) : splitLabel? line = none := by
  have hdrop : line.dropWhile (· != ':') = [] :=
    List.dropWhile_eq_nil_iff.2 fun c hc => bne_iff_ne.2 fun hcolon => h (hcolon ▸ hc)
  unfold splitLabel?
  simp only [hdrop]

theorem isLabel_of_mem_handlerLabels {h : Handler} (hh : h.Spellable b.size) :
    ∀ label ∈ b.handlerLabels h, IsLabel label := by
  obtain ⟨start, -, filter, heq, -⟩ := hh
  intro label hlabel
  rw [heq, Body.handlerLabels, List.mem_append, List.mem_singleton, Option.mem_toList] at hlabel
  rcases hlabel with hlabel | rfl
  · obtain ⟨id, -, rfl⟩ := Option.map_eq_some_iff.1 hlabel
    exact b.isLabel_label id
  · exact b.isLabel_label start

/-- A directive is a word without colons, and begins neither like `.method` nor like `.end`. -/
theorem directive_spelling (kind : HandlerKind) : kind.directive ≠ "" ∧
    (∀ c ∈ kind.directive.toList, isBlank c = false ∧ c ≠ ':') ∧
    (∀ rest, after? ".method".toList (kind.directive.toList ++ rest) = none ∧
      kind.directive.toList ++ rest ≠ ".end".toList) ∧
    kind.directive.toList.head? = some '.' := by
  have hchars : kind.directive.toList.all (fun c => !isBlank c && c != ':') = true := by
    cases kind <;> decide
  refine ⟨by cases kind <;> decide, fun c hc => ?_, fun rest => ?_, by cases kind <;> rfl⟩
  · have hc := List.all_eq_true.1 hchars c hc
    rw [Bool.and_eq_true, Bool.not_eq_true', bne_iff_ne] at hc
    exact hc
  · cases kind <;> exact ⟨rfl, by simp [HandlerKind.directive]⟩

theorem words_handlerLine {h : Handler} (hh : h.Spellable b.size) :
    (words (b.handlerLine h).toList).map String.ofList = h.kind.directive :: b.handlerLabels h := by
  obtain ⟨hne, hchars, -⟩ := directive_spelling h.kind
  have hlabels := isLabel_of_mem_handlerLabels hh
  rw [Body.handlerLine, words_intercalate, map_ofList_toList]
  · intro word hword
    rcases List.mem_cons.1 hword with rfl | hword
    · exact hne
    · exact (hlabels word hword).1
  · intro word hword c hc
    rcases List.mem_cons.1 hword with rfl | hword
    · exact (hchars c hc).1
    · exact isBlank_of_isLabelChar ((hlabels word hword).2 c hc)

theorem readHandler_handlerLine {h : Handler} (hh : h.Spellable b.size) :
    readHandler (b.handlerLine h).toList = .ok (handlerDraft b h) := by
  unfold readHandler
  rw [words_handlerLine hh]
  obtain ⟨start, -, filter, heq, hfilter, -⟩ := hh
  rw [heq]
  unfold handlerDraft
  cases hkind : h.kind with
  | filter =>
    obtain ⟨id, rfl⟩ := Option.isSome_iff_exists.1 (hfilter.2 hkind)
    rfl
  | _ =>
    have hnone : filter = none := by
      rw [← Option.not_isSome_iff_eq_none, hfilter, hkind]
      nofun
    subst hnone
    rfl

theorem handlerLine_eq (h : Handler) :
    ∃ rest, (b.handlerLine h).toList = h.kind.directive.toList ++ ' ' :: rest := by
  rw [Body.handlerLine, String.intercalate_cons_of_ne_nil (by simp [Body.handlerLabels]),
    String.toList_append, String.toList_append, List.append_assoc]
  exact ⟨_, rfl⟩

theorem colon_not_mem_handlerLine {h : Handler} (hh : h.Spellable b.size) :
    ':' ∉ (b.handlerLine h).toList := by
  intro hcolon
  rcases mem_intercalate hcolon with hcolon | ⟨word, hword, hcolon⟩
  · revert hcolon
    decide
  · rcases List.mem_cons.1 hword with rfl | hword
    · exact ((directive_spelling h.kind).2.1 _ hcolon).2 rfl
    · exact ne_of_isLabelChar ((isLabel_of_mem_handlerLabels hh word hword).2 _ hcolon) rfl rfl

theorem Block.readLine_handlerLine (block : Block) (line : Nat) {h : Handler}
    (hh : h.Spellable b.size) : block.readLine line (b.handlerLine h).toList =
      .ok (block.add line (.handler (handlerDraft b h))) := by
  have hhead : (b.handlerLine h).toList.head? = some '.' := by
    obtain ⟨rest, hrest⟩ := handlerLine_eq (b := b) h
    rw [hrest, List.head?_append, (directive_spelling h.kind).2.2.2, Option.some_or]
  unfold readLine readStatement
  rw [splitLabel?_eq_none (colon_not_mem_handlerLine hh), if_pos hhead, readHandler_handlerLine hh]
  rfl

/-- A line places the name of its offset and adds the instruction. -/
theorem Block.readLine_textWith {block block' : Block} {line : Nat} {i : Instruction}
    (hshape : i.code.shape.admits i.operand) {size : Nat} (hi : i.operand.Spellable size)
    (hlabels : ∀ target ∈ i.operand.targets, IsLabel (b.labelText target)) {label : String}
    (hlabel : IsLabel label) (hoffset : label = offsetText i.offset.toNat)
    (htrim : trim (i.textWith b.labelText).toList = (i.textWith b.labelText).toList)
    (hplace : block.place line label = .ok block') :
    block.readLine line (i.textWith b.labelText).toList =
      .ok (block'.add line (.instruction (draft b.labelText i))) := by
  obtain ⟨c, s, hchars, hdot, hblank⟩ := i.code.mnemonic_spelling
  have htext : (i.textWith b.labelText).toList = (label.toList ++ [':', ' ']) ++
      (i.code.mnemonic.toList ++ (i.operand.textWith b.labelText).toList) := by
    rw [Instruction.textWith, String.toList_append, String.toList_append, String.toList_append,
      hoffset, List.append_assoc]
    rfl
  have hread := readInstruction_text hshape hi hlabels
  rw [htext] at htrim
  rw [htext, hchars, List.append_assoc]
  rw [hchars] at htrim hread
  have hrest := trim_eq_self_of_append htrim fun d hd => by
    obtain rfl := Option.some.inj hd
    exact hblank _ List.mem_cons_self
  have hnodot : ¬ (c :: s ++ (i.operand.textWith b.labelText).toList).head? = some '.' := by
    intro h
    exact hdot (Option.some.inj h)
  have hsplit : splitLabel? (label.toList ++ ([':', ' '] ++
      (c :: s ++ (i.operand.textWith b.labelText).toList))) =
      some (label, ' ' :: (c :: s ++ (i.operand.textWith b.labelText).toList)) :=
    splitLabel?_append hlabel (by simp)
  unfold readLine readStatement
  rw [hsplit]
  simp only [hplace, bind, Except.bind, trim_cons_of_isBlank (c := ' ') rfl, hrest, if_neg hnodot,
    hread]
  rfl

/-! ## The lines of a body -/

/-- The block holds these handlers and the first `count` instructions of the body. -/
structure Block.Follows (b : Body) (handlers : List Handler) (count : Nat) (block : Block) :
    Prop where
  name : block.builder.name = b.name
  drafts : block.builder.drafts.toList = (b.instructions.take count).map (draft b.labelText)
  handlers : block.builder.handlers.toList = handlers.map (handlerDraft b)
  placed : ∀ id < b.size, block.builder.place? (b.label id) = if id < count then some id else none
  placedOn : ∀ id < b.size, (block.placedOn.lookup (b.label id)).isSome = decide (id < count)
  named : ∀ named ∈ block.namedOn, ∃ id < b.size, named.2 = b.label id

namespace Block

theorem Follows.start (b : Body) : Follows b [] 0 { builder := { name := b.name } } where
  name := rfl
  drafts := rfl
  handlers := rfl
  placed _ _ := rfl
  placedOn _ _ := rfl
  named := nofun

theorem exists_of_mem_labels_handlerDraft {h : Handler} (hh : h.Spellable b.size) :
    ∀ label ∈ (handlerDraft b h).labels, ∃ id < b.size, label = b.label id := by
  obtain ⟨start, hstart, filter, heq, -, hfilter⟩ := hh
  intro label hlabel
  rw [heq, HandlerDraft.labels, List.mem_cons, Option.mem_toList] at hlabel
  rcases hlabel with rfl | hlabel
  · exact ⟨start, hstart, rfl⟩
  · obtain ⟨id, hid, rfl⟩ := Option.map_eq_some_iff.1 hlabel
    exact ⟨id, hfilter id hid, rfl⟩

theorem exists_of_mem_labels_draft {i : Instruction} (hi : i.operand.Spellable b.size) :
    ∀ label ∈ (draft b.labelText i).labels, ∃ id < b.size, label = b.label id := by
  intro label hlabel
  unfold draft at hlabel
  split at hlabel
  · next target hoperand =>
    rw [hoperand] at hi
    obtain ⟨id, hid, rfl⟩ := hi target List.mem_cons_self
    exact ⟨id, hid, List.mem_singleton.1 hlabel⟩
  · next targets hoperand =>
    rw [hoperand] at hi
    obtain ⟨target, htarget, rfl⟩ := List.mem_map.1 hlabel
    obtain ⟨id, hid, rfl⟩ := hi target htarget
    exact ⟨id, hid, rfl⟩
  · cases hlabel

/-- The line of a handler adds this handler. -/
theorem Follows.handler {handlers : List Handler} {block : Block} (hblock : Follows b handlers 0 block)
    {h : Handler} (hh : h.Spellable b.size) (line : Nat) :
    Follows b (handlers ++ [h]) 0 (block.add line (.handler (handlerDraft b h))) where
  name := hblock.name
  drafts := hblock.drafts
  handlers := by
    show (block.builder.handlers.push (handlerDraft b h)).toList = _
    rw [Array.toList_push, hblock.handlers, List.map_append]
    rfl
  placed := hblock.placed
  placedOn := hblock.placedOn
  named named hnamed := by
    rcases (mem_namedOn_add_iff ..).1 hnamed with hnamed | ⟨-, hnamed⟩
    · exact hblock.named named hnamed
    · exact exists_of_mem_labels_handlerDraft hh _ hnamed

/-- The label of the next instruction can be placed, since no other one has this name. -/
theorem Follows.place {handlers : List Handler} {count : Nat} {block : Block}
    (hblock : Follows b handlers count block) (hcount : count < b.size) (line : Nat) :
    block.place line (b.label count) = .ok { block with
      builder := block.builder.place (b.label count)
      placedOn := (b.label count, line) :: block.placedOn } := by
  have hfresh := hblock.placedOn count hcount
  rw [decide_eq_false (Nat.lt_irrefl count), Option.isSome_eq_false_iff, Option.isNone_iff_eq_none]
    at hfresh
  rw [Block.place, hfresh]

/-- What is placed on one instruction is not found under the name of another. -/
theorem lookup_label (hlaid : b.relaid = b) (hb : b.Spellable) {id id' : InstructionId}
    (hid : id < b.size) (hid' : id' < b.size) (n : Nat) (rest : List (String × Nat)) :
    List.lookup (b.label id') ((b.label id, n) :: rest) =
      if id' = id then some n else List.lookup (b.label id') rest := by
  rw [List.lookup_cons]
  by_cases hsame : id' = id
  · have heq : (b.label id' == b.label id) = true := beq_iff_eq.2 (congrArg b.label hsame)
    simp only [heq, if_pos hsame]
  · have hne : (b.label id' == b.label id) = false := beq_eq_false_iff_ne.2 fun h =>
      hsame (Body.label_inj hlaid hb hid' hid h)
    simp only [hne, if_neg hsame]

/-- The line of the next instruction places its label and adds its draft. -/
theorem Follows.instruction (hlaid : b.relaid = b) (hb : b.Spellable) {handlers : List Handler}
    {id : InstructionId} {i : Instruction} (hi : b.get? id = some i) {block placed : Block}
    (hblock : Follows b handlers id block) {line : Nat}
    (hplace : block.place line (b.label id) = .ok placed) :
    Follows b handlers (id + 1) (placed.add line (.instruction (draft b.labelText i))) := by
  have hid : id < b.size := (List.getElem?_eq_some_iff.1 hi).1
  obtain rfl := Except.ok.inj ((hblock.place hid line).symm.trans hplace)
  have hsize : block.builder.drafts.size = id := by
    rw [← Array.length_toList, hblock.drafts, List.length_map, List.length_take]
    exact Nat.min_eq_left (Nat.le_of_lt hid)
  refine ⟨hblock.name, ?_, hblock.handlers, ?_, ?_, ?_⟩
  · show (block.builder.drafts.push (draft b.labelText i)).toList = _
    rw [Array.toList_push, hblock.drafts, List.take_add_one, List.map_append]
    rw [Body.get?] at hi
    rw [hi]
    rfl
  · intro id' hid'
    show List.lookup (b.label id') ((b.label id, block.builder.drafts.size) :: _) = _
    have hbefore : List.lookup (b.label id') block.builder.placed = _ := hblock.placed id' hid'
    rw [lookup_label hlaid hb hid hid', hbefore, hsize]
    rcases Nat.lt_trichotomy id' id with hlt | heq | hgt
    · rw [if_neg (Nat.ne_of_lt hlt), if_pos hlt, if_pos (Nat.lt_succ_of_lt hlt)]
    · rw [if_pos heq, if_pos (Nat.lt_succ_of_le (Nat.le_of_eq heq)), heq]
    · rw [if_neg (Nat.ne_of_gt hgt), if_neg (Nat.not_lt_of_gt hgt), if_neg (Nat.not_lt_of_ge hgt)]
  · intro id' hid'
    show (List.lookup (b.label id') ((b.label id, line) :: block.placedOn)).isSome = _
    rw [lookup_label hlaid hb hid hid']
    by_cases hsame : id' = id
    · rw [if_pos hsame, Option.isSome_some, decide_eq_true (Nat.lt_succ_of_le (Nat.le_of_eq hsame))]
    · rw [if_neg hsame, hblock.placedOn id' hid', decide_eq_decide]
      omega
  · intro named hnamed
    rcases (mem_namedOn_add_iff ..).1 hnamed with hnamed | ⟨-, hnamed⟩
    · exact hblock.named named hnamed
    · have hspellable := hb.operands i (List.mem_of_getElem? hi)
      apply exists_of_mem_labels_draft hspellable
      cases hd : draft b.labelText i <;> rw [hd] at hnamed <;> exact hnamed

/-! ## The end of a body -/

section Resolved

variable {place : String → Nat} (hplace : ∀ id < b.size, place (b.label id) = id)
include hplace

theorem resolved_handlerDraft {h : Handler} (hh : h.Spellable b.size) :
    (handlerDraft b h).resolved place = h := by
  obtain ⟨start, hstart, filter, heq, -, hfilter⟩ := hh
  rw [heq]
  unfold handlerDraft HandlerDraft.resolved
  have hstart' : place (b.labelText (some start)) = start := hplace start hstart
  have hfilter' : (filter.map b.label).map place = filter := by
    cases filter with
    | none => rfl
    | some id => exact congrArg some (hplace id (hfilter id rfl))
  simp only [hstart', hfilter']

theorem resolved_draft {i : Instruction} (hshape : i.code.shape.admits i.operand)
    (hi : i.operand.Spellable b.size) :
    ((draft b.labelText i).resolved place).code = i.code ∧
      ((draft b.labelText i).resolved place).operand = i.operand := by
  unfold draft
  split
  · next target hoperand =>
    rw [hoperand] at hi ⊢
    obtain ⟨id, hid, rfl⟩ := hi target List.mem_cons_self
    exact ⟨rfl, congrArg (fun id => Operand.target (some id)) (hplace id hid)⟩
  · next targets hoperand =>
    rw [hoperand] at hi hshape ⊢
    have hcode := Opcode.eq_switch_of_shape (OperandShape.eq_switch_of_admits hshape)
    have htargets : (targets.map b.labelText).map (fun label => some (place label)) = targets := by
      rw [List.map_map]
      refine (List.map_congr_left fun target htarget => ?_).trans (List.map_id targets)
      obtain ⟨id, hid, rfl⟩ := hi target htarget
      exact congrArg some (hplace id hid)
    exact ⟨hcode.symm, congrArg Operand.switch htargets⟩
  · exact ⟨rfl, rfl⟩

theorem handlers_resolved (hb : b.Spellable) :
    (b.handlers.map (handlerDraft b)).map (fun d => d.resolved place) = b.handlers := by
  rw [List.map_map]
  exact (List.map_congr_left fun h hh => resolved_handlerDraft hplace (hb.handlers h hh)).trans
    (List.map_id _)

/-- The drafts know no offsets, but the layout finds them again. -/
theorem layout_resolved (hlaid : b.relaid = b) (hb : b.Spellable) :
    layout 0 ((b.instructions.map (draft b.labelText)).map fun d => d.resolved place) =
      b.instructions := by
  have hsame : layout 0 ((b.instructions.map (draft b.labelText)).map fun d => d.resolved place) =
      layout 0 b.instructions := by
    apply layout_congr
    rw [List.map_map, List.forall₂_map_left_iff, List.forall₂_same]
    exact fun i hi => resolved_draft hplace (hb.shapes i hi) (hb.operands i hi)
  exact hsame.trans (congrArg Body.instructions hlaid)

end Resolved

theorem Follows.firstUnplaced? {handlers : List Handler} {block : Block}
    (hblock : Follows b handlers b.size block) : block.firstUnplaced? = none := by
  rcases block.firstUnplaced?_cases with ⟨hnone, -⟩ | ⟨named, -, hnamed, hlookup, -⟩
  · exact hnone
  · obtain ⟨id, hid, hlabel⟩ := hblock.named named hnamed
    have hplaced := hblock.placedOn id hid
    rw [decide_eq_true hid, ← hlabel, hlookup] at hplaced
    cases hplaced

theorem Follows.drafts_eq {handlers : List Handler} {block : Block}
    (hblock : Follows b handlers b.size block) :
    block.builder.drafts.toList = b.instructions.map (draft b.labelText) := by
  rw [hblock.drafts, Body.size, List.take_length]

/-- Every label that is named marks the instruction it is the name of. -/
theorem Follows.resolve (hb : b.Spellable) {block : Block}
    (hblock : Follows b b.handlers b.size block) :
    ∀ label ∈ block.builder.labels,
      ∃ id < b.size, label = b.label id ∧ block.builder.resolve label = .ok id := by
  intro label hlabel
  have hnamed : ∃ id < b.size, label = b.label id := by
    rw [Builder.labels, hblock.drafts_eq, hblock.handlers, List.mem_append, List.mem_flatMap,
      List.mem_flatMap] at hlabel
    rcases hlabel with ⟨d, hd, hlabel⟩ | ⟨d, hd, hlabel⟩
    · obtain ⟨i, hi, rfl⟩ := List.mem_map.1 hd
      exact exists_of_mem_labels_draft (hb.operands i hi) label hlabel
    · obtain ⟨h, hh, rfl⟩ := List.mem_map.1 hd
      exact exists_of_mem_labels_handlerDraft (hb.handlers h hh) label hlabel
  obtain ⟨id, hid, rfl⟩ := hnamed
  refine ⟨id, hid, rfl, ?_⟩
  rw [Builder.resolve_eq_ok_iff, hblock.placed id hid, if_pos hid, ← Array.length_toList,
    hblock.drafts_eq, List.length_map]
  exact ⟨rfl, hid⟩

/-- A block that holds all of the body is finished to this body. -/
theorem Follows.finish (hlaid : b.relaid = b) (hb : b.Spellable) {block : Block}
    (hblock : Follows b b.handlers b.size block) (line : Nat) : block.finish line = .ok b := by
  let place : String → Nat := fun label => (block.builder.place? label).getD 0
  have hplace : ∀ id < b.size, place (b.label id) = id := by
    intro id hid
    show (block.builder.place? (b.label id)).getD 0 = id
    rw [hblock.placed id hid, if_pos hid, Option.getD_some]
  have hresolve : ∀ label ∈ block.builder.labels,
      block.builder.resolve label = .ok (place label) := by
    intro label hlabel
    obtain ⟨id, hid, rfl, hresolve⟩ := hblock.resolve hb label hlabel
    rw [hplace id hid, hresolve]
  unfold Block.finish
  rw [hblock.firstUnplaced?, block.builder.finish_resolvesInTurn.ok place hresolve, hblock.name,
    hblock.drafts_eq, hblock.handlers, handlers_resolved hplace hb, Body.ofInstructions,
    layout_resolved hplace hlaid hb]

end Block

/-! ## The whole listing -/

/-- A line inside of a method is left to the block. -/
theorem readLine_inside {bodies : Array Body} {block block' : Block} {line : Nat} {text : List Char}
    (hstrip : stripComment .outside text = text) (htrim : trim text = text) (hne : text ≠ [])
    (hmethod : directive? ".method" text = none) (hend : text ≠ ".end".toList)
    (h : block.readLine line text = .ok block') :
    readLine ⟨bodies, some block⟩ line text = .ok ⟨bodies, some block'⟩ := by
  unfold readLine
  simp only [hstrip, htrim, hmethod, h]
  rw [if_neg (by simpa using hne), if_neg hend]

/-- Lines that each take a block one step further take it to the end. -/
theorem readLines_of_steps (bodies : Array Body) {P : Nat → Block → Prop} (lines : List (List Char))
    (hstep : ∀ k block line text, lines[k]? = some text → P k block → ∃ block',
      readLine ⟨bodies, some block⟩ line text = .ok ⟨bodies, some block'⟩ ∧ P (k + 1) block')
    (block : Block) (line : Nat) (hblock : P 0 block) :
    ∃ block', readLines ⟨bodies, some block⟩ line lines = .ok ⟨bodies, some block'⟩ ∧
      P lines.length block' := by
  induction lines generalizing P block line with
  | nil => exact ⟨block, rfl, hblock⟩
  | cons text lines ih =>
    obtain ⟨next, hnext, hP⟩ := hstep 0 block line text rfl hblock
    obtain ⟨block', hread, hlast⟩ := ih (P := fun k => P (k + 1))
      (fun k block line text hk hP => hstep (k + 1) block line text hk hP) next (line + 1) hP
    refine ⟨block', ?_, hlast⟩
    rw [readLines, hnext]
    exact hread

theorem readLines_handlers (hb : b.Spellable) (bodies : Array Body) {block : Block}
    (hblock : Block.Follows b [] 0 block) (line : Nat) :
    ∃ block', readLines ⟨bodies, some block⟩ line (b.handlers.map (String.toList ∘ b.handlerLine)) =
        .ok ⟨bodies, some block'⟩ ∧ Block.Follows b b.handlers 0 block' := by
  have hrun := readLines_of_steps bodies (P := fun k => Block.Follows b (b.handlers.take k) 0)
    (b.handlers.map (String.toList ∘ b.handlerLine)) ?_ block line hblock
  · rwa [List.length_map, List.take_length] at hrun
  · intro k block line text hk hblock
    rw [List.getElem?_map, Option.map_eq_some_iff] at hk
    obtain ⟨h, hk, rfl⟩ := hk
    rw [Function.comp_apply]
    have hmem := List.mem_of_getElem? hk
    have hh := hb.handlers h hmem
    obtain ⟨hstrip, htrim, -⟩ := hb.lines (b.handlerLine h)
      (Body.mem_listingLines.2 (.inr (.inl ⟨h, hmem, rfl⟩)))
    obtain ⟨rest, hrest⟩ := handlerLine_eq (b := b) h
    obtain ⟨hmethod, hend⟩ := (directive_spelling h.kind).2.2.1 (' ' :: rest)
    refine ⟨_, readLine_inside hstrip htrim ?_ ?_ ?_ (block.readLine_handlerLine line hh), ?_⟩
    · rw [hrest]
      simp
    · rw [hrest, directive?, hmethod]
    · rwa [hrest]
    · rw [List.take_add_one, hk]
      exact hblock.handler hh line

theorem readLines_instructions (hlaid : b.relaid = b) (hb : b.Spellable) (bodies : Array Body)
    {block : Block} (hblock : Block.Follows b b.handlers 0 block) (line : Nat) :
    ∃ block', readLines ⟨bodies, some block⟩ line
        (b.instructions.map (String.toList ∘ Instruction.textWith b.labelText)) =
        .ok ⟨bodies, some block'⟩ ∧ Block.Follows b b.handlers b.size block' := by
  have hrun := readLines_of_steps bodies (P := Block.Follows b b.handlers)
    (b.instructions.map (String.toList ∘ Instruction.textWith b.labelText)) ?_ block line hblock
  · rwa [List.length_map] at hrun
  · intro id block line text hid hblock
    rw [List.getElem?_map, Option.map_eq_some_iff] at hid
    obtain ⟨i, hi, rfl⟩ := hid
    rw [Function.comp_apply]
    have hmem := List.mem_of_getElem? hi
    obtain ⟨hstrip, htrim, -⟩ := hb.lines (i.textWith b.labelText)
      (Body.mem_listingLines.2 (.inr (.inr (.inl ⟨i, hmem, rfl⟩))))
    have hid : id < b.size := (List.getElem?_eq_some_iff.1 hi).1
    have hoffset : b.label id = offsetText i.offset.toNat := by
      rw [Body.label, Body.offset?, Body.get?, hi]
      rfl
    have hlabels : ∀ target ∈ i.operand.targets, IsLabel (b.labelText target) := by
      intro target htarget
      obtain ⟨id', -, rfl⟩ := (hb.operands i hmem).targets target htarget
      exact b.isLabel_label id'
    have hplace := hblock.place hid line
    have hread := Block.readLine_textWith (hb.shapes i hmem) (hb.operands i hmem) hlabels
      (b.isLabel_label id) hoffset htrim hplace
    obtain ⟨rest, hrest⟩ := i.textWith_eq_cons b.labelText
    refine ⟨_, readLine_inside hstrip htrim ?_ ?_ ?_ hread, hblock.instruction hlaid hb hi hplace⟩
    · rw [hrest]
      simp
    · rw [hrest]
      rfl
    · rw [hrest]
      simp

theorem ne_nil_of_mem_listingLines (b : Body) :
    ∀ line ∈ b.listingLines, line.toList ≠ [] := by
  intro line hline
  rcases Body.mem_listingLines.1 hline with rfl | ⟨h, -, rfl⟩ | ⟨i, -, rfl⟩ | rfl
  · simp
  · obtain ⟨rest, hrest⟩ := handlerLine_eq (b := b) h
    rw [hrest]
    simp
  · obtain ⟨rest, hrest⟩ := i.textWith_eq_cons b.labelText
    rw [hrest]
    simp
  · decide

theorem lines_listing (hb : b.Spellable) {ending : String} (hending : ending = "" ∨ ending = "\n") :
    lines (b.listing ++ ending).toList = b.listingLines.map String.toList := by
  rw [String.toList_append, Body.listing, String.toList_intercalate]
  apply lines_intercalate
  · intro line hline
    obtain ⟨text, htext, rfl⟩ := List.mem_map.1 hline
    exact (hb.lines text htext).2.2
  · intro line hline
    obtain ⟨text, htext, rfl⟩ := List.mem_map.1 hline
    exact ne_nil_of_mem_listingLines b text htext
  · rcases hending with rfl | rfl
    · exact .inl rfl
    · exact .inr rfl
  · simp [Body.listingLines]

/-- The first line opens the block of the method. -/
theorem readLine_method (hb : b.Spellable) (line : Nat) :
    readLine {} line (".method " ++ b.name).toList =
      .ok { block := some { builder := { name := b.name } } } := by
  obtain ⟨hstrip, htrim, -⟩ := hb.lines (".method " ++ b.name) List.mem_cons_self
  have hname : b.name.toList ≠ [] := fun h => hb.name.1 (String.toList_eq_nil_iff.1 h)
  have htext : (".method " ++ b.name).toList = ".method".toList ++ ' ' :: b.name.toList := by
    rw [String.toList_append]
    rfl
  have hmethod : directive? ".method" (".method " ++ b.name).toList = some b.name.toList := by
    rw [htext, directive?, after?_append]
    show (if isBlank ' ' = true then some (trim (' ' :: b.name.toList)) else none) = _
    rw [if_pos (by decide), trim_cons_of_isBlank rfl, hb.name.2]
  unfold readLine
  simp only [hstrip, htrim, hmethod]
  rw [if_neg (by rw [htext]; simp), if_neg (by simpa using hname), String.ofList_toList]

/-- The last line finishes the body. -/
theorem readLine_end (hlaid : b.relaid = b) (hb : b.Spellable) {block : Block}
    (hblock : Block.Follows b b.handlers b.size block) (line : Nat) :
    readLine ⟨#[], some block⟩ line ".end".toList = .ok { bodies := #[b] } := by
  show (block.finish line >>= fun body => pure ({ bodies := #[].push body } : Progress)) = _
  rw [hblock.finish hlaid hb]
  rfl

/-- The lines of a body take an empty reader to one that holds the body. -/
theorem readLines_listingLines (hlaid : b.relaid = b) (hb : b.Spellable) :
    readLines {} 1 (b.listingLines.map String.toList) = .ok { bodies := #[b] } := by
  obtain ⟨opened, hopened, hhandlers⟩ := readLines_handlers hb #[] (.start b) 2
  obtain ⟨filled, hfilled, hall⟩ :=
    readLines_instructions hlaid hb #[] hhandlers (2 + b.handlers.length)
  rw [Body.listingLines, List.map_cons, readLines, readLine_method hb, List.map_append,
    List.map_append, List.map_map, List.map_map]
  show readLines _ 2 _ = _
  rw [readLines_append, hopened, List.length_map]
  show readLines _ _ _ = _
  rw [readLines_append, hfilled]
  show (readLine _ _ ".end".toList >>= _) = _
  rw [readLine_end hlaid hb hall]
  rfl

/-- **Reading undoes rendering.**  A body that listings can spell is read back from its listing, name
and instructions and handlers, and nothing else is. -/
theorem read_listing (name : String) (instructions : List Instruction) (handlers : List Handler)
    (h : (Body.ofInstructions name instructions handlers).Spellable) (ending : String)
    (hending : ending = "" ∨ ending = "\n") :
    read ((Body.ofInstructions name instructions handlers).listing ++ ending) =
      .ok [Body.ofInstructions name instructions handlers] := by
  have hlaid := Body.relaid_ofInstructions name instructions handlers
  rw [read, lines_listing h hending, ofLines, readLines_listingLines hlaid h]
  rfl

/-- A method under a filter that shows a string, calls, and jumps back to its start. -/
def loggingBody : Body :=
  .ofInstructions "Log all"
    [{ code := .ldstr, operand := .text "\"//\"\n" },
      { code := .call
        operand := .method ⟨"Log", "Write", { parameters := ["string"], returnType := none }⟩ },
      { code := .ldcI4, operand := .int32 (-7) },
      { code := .switch, operand := .switch [some 0, some 4] },
      { code := .brS, operand := .target (some 0) }]
    [{ kind := .filter, handlerStart := some 4, filterStart := some 2 }]

/-- The slashes and quotes inside of the string, the signs of the call and the labels on both sides of
their uses are all read back. -/
theorem read_loggingBody :
    loggingBody.Spellable ∧ read (loggingBody.listing ++ "\n") = .ok [loggingBody] := by
  have hspellable : loggingBody.Spellable :=
    { name := by decide
      offsets := by decide
      shapes := by decide
      operands := by decide +kernel
      handlers := fun h hh => by
        obtain rfl := List.mem_singleton.1 hh
        exact ⟨4, by decide, some 2, rfl, by decide, by decide⟩
      lines := by decide +kernel }
  exact ⟨hspellable, read_listing _ _ _ hspellable "\n" (.inr rfl)⟩

end Listing

end PushGuard
