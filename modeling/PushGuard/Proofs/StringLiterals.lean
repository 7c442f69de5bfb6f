import PushGuard.Proofs.ListingLabels
import PushGuard.Proofs.OperandText

/-!
# String literals

Every string can stand in a listing.  Its literal has an escape for the quote, the backslash and the
four control characters that have a letter, and every other character as it is (`literal`).  Three
scans go over the line with the literal: one for a comment, one for a label, and the one that replaces
the escapes.  Each of them sees a character of the string as an escape or as a plain character
(`literalChar_cases`), so all of them find the end of the literal at the same place, and reading gives
the string back (`read_literal`).
-/

namespace PushGuard.Listing

open Text

/-- The letter of the escape for a character that needs one. -/
def escapeLetter? (c : Char) : Option Char :=
  if c = '\n' then some 'n'
  else if c = '\t' then some 't'
  else if c = '\r' then some 'r'
  else if c = '\x00' then some '0'
  else if c = '\\' ∨ c = '"' then some c
  else none

/-- A character inside of a literal. -/
def literalChar (c : Char) : List Char :=
  match escapeLetter? c with
  | some letter => ['\\', letter]
  | none => [c]

/-- The literal of a string. -/
def literal (s : String) : String := "\"" ++ String.ofList (s.toList.flatMap literalChar) ++ "\""

/-- What may follow an operand on its line: nothing, or blanks and a comment. -/
def IsTrailer (s : List Char) : Prop :=
  s = [] ∨ ∃ blanks comment, s = blanks ++ '/' :: '/' :: comment ∧ (∀ c ∈ blanks, isBlank c = true) ∧
    '\n' ∉ s

/-- Blanks, and behind them a comment or nothing. -/
def IsRemark (s : List Char) : Prop :=
  ∃ blanks comment, s = blanks ++ comment ∧ (∀ c ∈ blanks, isBlank c = true) ∧
    (comment = [] ∨ ∃ rest, comment = '/' :: '/' :: rest)

/-! ## The characters of a literal -/

theorem escaped?_of_escapeLetter? {c letter : Char} (h : escapeLetter? c = some letter) :
    escaped? letter = some c := by
  unfold escapeLetter? at h
  split at h
  · next hc => obtain rfl := Option.some.inj h; exact hc ▸ rfl
  split at h
  · next hc => obtain rfl := Option.some.inj h; exact hc ▸ rfl
  split at h
  · next hc => obtain rfl := Option.some.inj h; exact hc ▸ rfl
  split at h
  · next hc => obtain rfl := Option.some.inj h; exact hc ▸ rfl
  split at h
  · next hc =>
    obtain rfl := Option.some.inj h
    rcases hc with rfl | rfl <;> rfl
  · cases h

/-- A character stands for itself, or a letter behind a backslash stands for it. -/
theorem literalChar_cases (c : Char) :
    (literalChar c = [c] ∧ c ≠ '\\' ∧ c ≠ '"' ∧ c ≠ '\n') ∨
      ∃ letter, literalChar c = ['\\', letter] ∧ escaped? letter = some c ∧ letter ≠ '\n' := by
  unfold literalChar
  cases hc : escapeLetter? c with
  | some letter =>
    have hletter := escaped?_of_escapeLetter? hc
    refine Or.inr ⟨letter, rfl, hletter, ?_⟩
    rintro rfl
    have hnone : escaped? '\n' = none := by decide
    rw [hnone] at hletter
    cases hletter
  | none =>
    refine Or.inl ⟨rfl, ?_, ?_, ?_⟩
    · rintro rfl
      exact absurd hc (by decide)
    · rintro rfl
      exact absurd hc (by decide)
    · rintro rfl
      exact absurd hc (by decide)

theorem toList_literal (s : String) :
    (literal s).toList = ['"'] ++ (s.toList.flatMap literalChar ++ ['"']) := by
  simp [literal]

theorem lineFeed_not_mem_literal (s : String) : '\n' ∉ (literal s).toList := by
  rw [toList_literal]
  intro h
  simp only [List.singleton_append, List.mem_cons, List.mem_append, List.mem_flatMap,
    List.not_mem_nil, or_false] at h
  rcases h with h | ⟨c, -, h⟩ | h
  · cases h
  · rcases literalChar_cases c with ⟨hc, -, -, hfeed⟩ | ⟨letter, hc, -, hfeed⟩
    · rw [hc, List.mem_singleton] at h
      exact hfeed h.symm
    · rw [hc, List.mem_cons, List.mem_singleton] at h
      rcases h with h | h
      · cases h
      · exact hfeed h.symm
  · cases h

/-! ## The scans -/

theorem unescape_flatMap_literalChar (s : List Char) : unescape (s.flatMap literalChar) = .ok s := by
  induction s with
  | nil => rfl
  | cons c s ih =>
    rw [List.flatMap_cons]
    rcases literalChar_cases c with ⟨hc, hbackslash, -, -⟩ | ⟨letter, hc, hletter, -⟩
    · rw [hc, List.singleton_append, unescape_plain hbackslash, ih]
      rfl
    · rw [hc, List.cons_append, List.singleton_append, unescape_escape hletter, ih]
      rfl

theorem readString_literal (s : String) : readString (literal s).toList = .ok s := by
  unfold readString
  rw [toList_literal, after?_append, Option.bind_some, before?_append]
  simp only [unescape_flatMap_literalChar, bind, Except.bind]
  rw [String.ofList_toList]
  rfl

/-- The search for a comment leaves the literal where its last quote is. -/
theorem stripComment_inside (s rest : List Char) :
    stripComment .inside (s.flatMap literalChar ++ '"' :: rest) =
      s.flatMap literalChar ++ '"' :: stripComment .outside rest := by
  induction s with
  | nil => rfl
  | cons c s ih =>
    rw [List.flatMap_cons, List.append_assoc, List.append_assoc]
    rcases literalChar_cases c with ⟨hc, hbackslash, hquote, -⟩ | ⟨letter, hc, -, -⟩
    · rw [hc, List.singleton_append, List.singleton_append, stripComment, if_neg hbackslash,
        if_neg hquote, ih]
    · rw [hc, List.cons_append, List.singleton_append, List.cons_append, List.singleton_append,
        stripComment, if_pos rfl, stripComment, ih]

/-- Outside of literals only slashes and quotes count. -/
theorem stripComment_outside {front : List Char} (hslash : '/' ∉ front) (hquote : '"' ∉ front)
    (rest : List Char) : stripComment .outside (front ++ rest) = front ++ stripComment .outside rest := by
  induction front with
  | nil => rfl
  | cons c front ih =>
    rw [List.mem_cons, not_or] at hslash hquote
    rw [List.cons_append, stripComment, if_neg fun hc => hslash.1 hc.1.symm,
      if_neg fun hc => hquote.1 hc.symm, ih hslash.2 hquote.2]
    rfl

theorem not_mem_of_blanks {blanks : List Char} (h : ∀ c ∈ blanks, isBlank c = true) {c : Char}
    (hc : isBlank c = false) : c ∉ blanks := by
  intro hmem
  rw [h c hmem] at hc
  cases hc

/-- Of a remark at most blanks are left. -/
theorem IsRemark.stripComment {remark : List Char} (h : IsRemark remark) :
    ∀ c ∈ stripComment .outside remark, isBlank c = true := by
  obtain ⟨blanks, comment, rfl, hblanks, hcomment⟩ := h
  rw [stripComment_outside (not_mem_of_blanks hblanks rfl) (not_mem_of_blanks hblanks rfl)]
  have hrest : Listing.stripComment .outside comment = [] := by
    rcases hcomment with rfl | ⟨rest, rfl⟩
    · rfl
    · rw [Listing.stripComment, if_pos ⟨rfl, rfl⟩]
  rw [hrest, List.append_nil]
  exact hblanks

theorem IsTrailer.isRemark {trailer : List Char} (h : IsTrailer trailer) : IsRemark trailer := by
  rcases h with rfl | ⟨blanks, comment, rfl, hblanks, -⟩
  · exact ⟨[], [], rfl, List.forall_mem_nil _, Or.inl rfl⟩
  · exact ⟨blanks, _, rfl, hblanks, Or.inr ⟨comment, rfl⟩⟩

theorem IsTrailer.lineFeed_not_mem {trailer : List Char} (h : IsTrailer trailer) :
    '\n' ∉ trailer := by
  rcases h with rfl | ⟨blanks, comment, -, -, hfeed⟩
  · exact List.not_mem_nil
  · exact hfeed

/-! ## The line of the literal -/

/-- The instruction that loads a string. -/
def loadText (s : String) : String := "ldstr " ++ literal s

theorem toList_loadText (s : String) :
    (loadText s).toList = "ldstr".toList ++ ' ' :: (literal s).toList :=
  String.toList_append

theorem loadText_ne_nil (s : String) : (loadText s).toList ≠ [] := by
  rw [toList_loadText]
  exact List.append_ne_nil_of_right_ne_nil _ (List.cons_ne_nil _ _)

theorem trim_loadText (s : String) : trim (loadText s).toList = (loadText s).toList := by
  rw [trim_eq_self_iff, toList_loadText]
  constructor
  · rintro c ⟨⟩
    rfl
  · intro c hc
    rw [toList_literal, ← List.cons_append, ← List.append_assoc, ← List.append_assoc,
      List.getLast?_concat] at hc
    obtain rfl := Option.some.inj hc
    rfl

/-- The search for a comment goes on behind the literal. -/
theorem stripComment_loadText (s : String) (rest : List Char) :
    stripComment .outside ((loadText s).toList ++ rest) =
      (loadText s).toList ++ stripComment .outside rest := by
  have hslash : '/' ∉ "ldstr ".toList := by decide
  have hquote : '"' ∉ "ldstr ".toList := by decide
  rw [loadText, String.toList_append, List.append_assoc, stripComment_outside hslash hquote,
    List.append_assoc, toList_literal, List.append_assoc, List.append_assoc, List.append_assoc,
    List.append_assoc]
  congr 1
  exact congrArg ('"' :: ·) (stripComment_inside s.toList rest)

theorem lineText_loadText (s : String) {trailer : List Char} (h : IsTrailer trailer) :
    lineText ((loadText s).toList ++ trailer) = (loadText s).toList := by
  rw [lineText, stripComment_loadText]
  exact (trim_append_blanks _ h.isRemark.stripComment).trans (trim_loadText s)

/-- A colon behind a blank ends no label. -/
theorem splitLabel?_eq_none_of_blank {front : List Char} (hcolon : ':' ∉ front) (rest : List Char) :
    splitLabel? (front ++ ' ' :: rest) = none := by
  have hfront : ∀ c ∈ front, (c != ':') = true := by
    intro c hc
    exact bne_iff_ne.2 fun heq => hcolon (heq ▸ hc)
  have hlabel : ((front ++ ' ' :: rest).takeWhile (· != ':')).all isLabelChar = false := by
    rw [List.takeWhile_append_of_pos hfront, List.all_eq_false]
    exact ⟨' ', List.mem_append_right _ List.mem_cons_self, by decide⟩
  unfold splitLabel?
  simp only [hlabel, Bool.not_false, Bool.or_true, Bool.true_or, if_true]
  split <;> rfl

theorem readInstruction_loadText (s : String) :
    readInstruction (loadText s).toList = .ok (.plain .ldstr (.text s)) := by
  have hblank : ∀ c ∈ (' ' :: (literal s).toList).head?, isBlank c = true := by
    rintro c ⟨⟩
    rfl
  obtain ⟨htake, hdrop⟩ := takeWhile_mnemonic .ldstr hblank
  have htrim : trim (' ' :: (literal s).toList) = (literal s).toList := by
    rw [trim_cons_of_isBlank rfl, toList_literal]
    exact trim_enclosed rfl rfl _
  have hne : ¬ (literal s).toList.isEmpty = true := by
    rw [toList_literal]
    exact Bool.false_ne_true
  have hshape : Opcode.ldstr.shape = .text := rfl
  have hmnemonic : "ldstr" = Opcode.ldstr.mnemonic := rfl
  unfold readInstruction
  rw [toList_loadText, hmnemonic, htake, hdrop, htrim]
  simp only [String.ofList_toList, Opcode.ofMnemonic?_mnemonic, hshape]
  rw [if_neg (by decide), if_neg hne, if_neg (by decide), if_neg (by decide), readOperand,
    readString_literal]
  rfl

/-- The line says to load the string, whatever method it stands in. -/
theorem says_loadText (s : String) {trailer : List Char} (h : IsTrailer trailer) :
    Says ((loadText s).toList ++ trailer)
      { statement := some (.instruction (.plain .ldstr (.text s))) } := by
  have hline := lineText_loadText s h
  have hcolon : ':' ∉ "ldstr".toList := by decide
  have hsplit := splitLabel?_eq_none_of_blank hcolon (literal s).toList
  have hnodot : ¬ (loadText s).toList.head? = some '.' := by
    rw [toList_loadText]
    nofun
  have hstatement : readStatement (loadText s).toList =
      .ok (.instruction (.plain .ldstr (.text s))) := by
    rw [readStatement, if_neg hnodot, readInstruction_loadText]
    rfl
  rw [← toList_loadText] at hsplit
  refine ⟨?_, ?_, ?_⟩
  · rw [hline, toList_loadText]
    rfl
  · rw [hline]
    intro hend
    rw [hend] at hnodot
    exact hnodot rfl
  · rw [hline, BlockLine.read, if_neg fun hempty => loadText_ne_nil s (List.isEmpty_iff.1 hempty),
      hsplit]
    simp only [hstatement]
    rfl

/-! ## The listing -/

/-- A method that loads a string, as a listing.  The text behind the literal stands on its line. -/
def loadListing (s trailer : String) : String :=
  String.intercalate "\n" [".method M", loadText s ++ trailer, ".end"]

/-- The body of a method that loads a string and does nothing else. -/
def loadBody (s : String) : Body where
  name := "M"
  instructions := [{ code := .ldstr, operand := .text s }]
  handlers := []

theorem lines_loadListing (s : String) {trailer ending : String} (h : IsTrailer trailer.toList)
    (hending : ending = "" ∨ ending = "\n") :
    lines (loadListing s trailer ++ ending).toList =
      [".method M".toList, (loadText s).toList ++ trailer.toList, ".end".toList] := by
  have hfeed : '\n' ∉ (loadText s).toList ++ trailer.toList := by
    rw [List.mem_append, loadText, String.toList_append, List.mem_append]
    rintro ((hmem | hmem) | hmem)
    · revert hmem
      decide
    · exact lineFeed_not_mem_literal s hmem
    · exact h.lineFeed_not_mem hmem
  rw [String.toList_append, loadListing, String.toList_intercalate, List.map_cons, List.map_cons,
    List.map_cons, List.map_nil, String.toList_append]
  apply lines_intercalate
  · simp [hfeed]
  · have hne := List.append_ne_nil_of_left_ne_nil (loadText_ne_nil s) trailer.toList
    simpa only [List.forall_mem_cons] using ⟨by decide, hne, by decide, nofun⟩
  · rcases hending with rfl | rfl
    · exact Or.inl rfl
    · exact Or.inr rfl
  · simp

/-- **Every string can be written in a listing.**  The literal of the string is read back as the string,
with or without a comment behind it, whatever characters the string and the comment hold. -/
theorem read_literal (s trailer ending : String) (h : IsTrailer trailer.toList)
    (hending : ending = "" ∨ ending = "\n") :
    read (loadListing s trailer ++ ending) = .ok [loadBody s] := by
  have hopen : directive? ".method" (lineText ".method M".toList) = some "M".toList := by decide
  have hend : lineText ".end".toList = ".end".toList := by decide
  let block : Block := { builder := { name := "M" } }
  have hline : readLine ⟨#[], some block⟩ 2 ((loadText s).toList ++ trailer.toList) =
      .ok ⟨#[], some (block.add 2 (.instruction (.plain .ldstr (.text s))))⟩ :=
    (says_loadText s h).readLine_eq #[] block 2
  have hfinish : (block.add 2 (.instruction (.plain .ldstr (.text s)))).finish 3 =
      .ok (loadBody s) := rfl
  have hread : readLines {} 1
      [".method M".toList, (loadText s).toList ++ trailer.toList, ".end".toList] =
      .ok { bodies := #[loadBody s] } := by
    rw [readLines, bind_eq_ok_iff]
    refine ⟨_, readLine_of_method hopen (by decide) #[] 1, ?_⟩
    rw [readLines, bind_eq_ok_iff]
    refine ⟨_, hline, ?_⟩
    rw [readLines, bind_eq_ok_iff]
    refine ⟨_, ?_, rfl⟩
    rw [readLine_of_end hend, hfinish]
    rfl
  rw [read, lines_loadListing s h hending, ofLines, hread]
  rfl

/-- Slashes, quotes, a colon, a line that would end the method, and a backslash at the end. -/
def trickyText : String := "l: \\\" // \"\n.end\u2028\x00\\"

theorem read_trickyText :
    IsTrailer "\u00a0\t// \"\\".toList ∧
      read (loadListing trickyText "\u00a0\t// \"\\" ++ "\n") = .ok [loadBody trickyText] := by
  have htrailer : IsTrailer "\u00a0\t// \"\\".toList :=
    Or.inr ⟨['\u00a0', '\t'], " \"\\".toList, rfl, List.all_eq_true.1 (by decide), by decide⟩
  exact ⟨htrailer, read_literal trickyText _ "\n" htrailer (Or.inr rfl)⟩

end PushGuard.Listing
