import PushGuard.Proofs.FaultLines
import PushGuard.Proofs.ListingComposition
import PushGuard.Proofs.StringLiterals

/-!
# Remarks

Blanks at the end of a line and a comment behind them say nothing.  What the reader makes of a line
depends on its text (`readLine_congr`), and behind a line on which no string is left open every remark
leaves the same text (`lineText_append`).

A line with a remark and nothing else is skipped, so the lines below it only get other numbers.  These
keep their order, and the lines above keep their numbers; hence a listing with one more such line has
the same bodies, or the same fault further down (`readLines_insert`).
-/

namespace PushGuard.Listing

open Text

/-- The search for a comment finds one, or comes to the end of the line outside of strings. -/
def endsOutside : StringPart → List Char → Bool
  | part, [] => part = .outside
  | .escape, _ :: s => endsOutside .inside s
  | .inside, c :: s =>
    endsOutside (if c = '\\' then .escape else if c = '"' then .outside else .inside) s
  | .outside, c :: s =>
    (c = '/' ∧ s.head? = some '/') || endsOutside (if c = '"' then .inside else .outside) s

/-- The remark stands behind the text, and no comment begins with the last slash of the text. -/
structure MayFollow (text remark : List Char) : Prop where
  isRemark : IsRemark remark
  apart : text.getLast? = some '/' → remark.head? ≠ some '/'

/-! ## The text of a line -/

/-- Behind a blank a comment may stand on every line. -/
theorem MayFollow.of_comment (text : List Char) {blanks : List Char} (hne : blanks ≠ [])
    (hblanks : ∀ c ∈ blanks, isBlank c = true) (rest : List Char) :
    MayFollow text (blanks ++ '/' :: '/' :: rest) := by
  refine ⟨⟨blanks, _, rfl, hblanks, Or.inr ⟨rest, rfl⟩⟩, fun _ hhead => ?_⟩
  obtain ⟨c, tail, rfl⟩ := List.exists_cons_of_ne_nil hne
  obtain rfl : c = '/' := Option.some.inj hhead
  cases hblanks '/' List.mem_cons_self

theorem MayFollow.of_cons {c : Char} {text remark : List Char} (h : MayFollow (c :: text) remark) :
    MayFollow text remark := by
  refine ⟨h.isRemark, fun hlast => h.apart ?_⟩
  rw [List.getLast?_cons, hlast]
  rfl

/-- Two slashes that begin a comment stand both in the text or both in the remark. -/
theorem MayFollow.slashes_iff {c : Char} {text remark : List Char} (h : MayFollow (c :: text) remark) :
    (c = '/' ∧ (text ++ remark).head? = some '/') ↔ (c = '/' ∧ text.head? = some '/') := by
  cases text with
  | cons d text => rfl
  | nil =>
    constructor
    · rintro ⟨rfl, hhead⟩
      exact absurd hhead (h.apart rfl)
    · rintro ⟨-, hhead⟩
      cases hhead

/-- Of a remark only blanks are left. -/
theorem stripComment_append {part : StringPart} {text remark : List Char}
    (houtside : endsOutside part text = true) (h : MayFollow text remark) :
    ∃ blanks, stripComment part (text ++ remark) = stripComment part text ++ blanks ∧
      ∀ c ∈ blanks, isBlank c = true := by
  induction text generalizing part with
  | nil =>
    obtain rfl : part = .outside := of_decide_eq_true houtside
    exact ⟨_, rfl, h.isRemark.stripComment⟩
  | cons c text ih =>
    rw [List.cons_append]
    cases part with
    | escape =>
      obtain ⟨blanks, hstrip, hblanks⟩ := ih houtside h.of_cons
      exact ⟨blanks, congrArg (c :: ·) hstrip, hblanks⟩
    | inside =>
      obtain ⟨blanks, hstrip, hblanks⟩ := ih houtside h.of_cons
      exact ⟨blanks, congrArg (c :: ·) hstrip, hblanks⟩
    | outside =>
      rw [stripComment, stripComment]
      by_cases hslashes : c = '/' ∧ text.head? = some '/'
      · rw [if_pos hslashes, if_pos (h.slashes_iff.2 hslashes)]
        exact ⟨[], rfl, List.forall_mem_nil _⟩
      · rw [endsOutside, decide_eq_false hslashes, Bool.false_or] at houtside
        rw [if_neg hslashes, if_neg (mt h.slashes_iff.1 hslashes)]
        obtain ⟨blanks, hstrip, hblanks⟩ := ih houtside h.of_cons
        exact ⟨blanks, congrArg (c :: ·) hstrip, hblanks⟩

theorem lineText_append {text remark : List Char} (houtside : endsOutside .outside text = true)
    (h : MayFollow text remark) : lineText (text ++ remark) = lineText text := by
  obtain ⟨blanks, hstrip, hblanks⟩ := stripComment_append houtside h
  rw [lineText, hstrip]
  exact trim_append_blanks _ hblanks

theorem IsRemark.lineText {remark : List Char} (h : IsRemark remark) : lineText remark = [] := by
  have hnothing : MayFollow [] remark := ⟨h, nofun⟩
  exact lineText_append rfl hnothing

/-! ## Lines with the same text -/

theorem readLine_congr {raw raw' : List Char} (h : lineText raw = lineText raw')
    (progress : Progress) (line : Nat) : readLine progress line raw = readLine progress line raw' := by
  unfold lineText at h
  unfold readLine
  rw [h]

theorem readLine_of_isRemark {raw : List Char} (h : IsRemark raw) (progress : Progress) (line : Nat) :
    readLine progress line raw = .ok progress := by
  have hnone := h.lineText
  unfold lineText at hnone
  unfold readLine
  rw [hnone]
  rfl

/-- What is read of lines depends on their texts. -/
theorem readLines_congr {raws raws' : List (List Char)} (h : raws.map lineText = raws'.map lineText)
    (progress : Progress) (line : Nat) :
    readLines progress line raws = readLines progress line raws' := by
  induction raws generalizing raws' progress line with
  | nil =>
    rw [List.map_nil, eq_comm, List.map_eq_nil_iff] at h
    rw [h]
  | cons raw raws ih =>
    obtain ⟨raw', rest, rfl, hraw, hrest⟩ := List.map_eq_cons_iff.1 h.symm
    rw [readLines, readLines, readLine_congr hraw.symm]
    cases readLine progress line raw' with
    | error fault => rfl
    | ok progress => exact ih hrest.symm progress (line + 1)

theorem ofLines_congr {raws raws' : List (List Char)} (h : raws.map lineText = raws'.map lineText) :
    ofLines raws = ofLines raws' := by
  have hlength : raws.length = raws'.length := by
    rw [← List.length_map lineText, h, List.length_map]
  rw [ofLines, ofLines, readLines_congr h, hlength]

/-! ## One line more -/

/-- The number of a line when one more stands behind the first `above` lines. -/
def pushedDown (above line : Nat) : Nat := if line ≤ above then line else line + 1

theorem pushedDown_of_le {above line : Nat} (h : line ≤ above) : pushedDown above line = line :=
  if_pos h

theorem pushedDown_of_lt {above line : Nat} (h : above < line) : pushedDown above line = line + 1 :=
  if_neg (Nat.not_le.2 h)

theorem pushedDown_strictMono (above : Nat) : StrictMono (pushedDown above) := by
  intro a b hab
  unfold pushedDown
  split <;> split <;> omega

/-- The lines above keep their numbers, and so do the numbers that the reader remembers of them. -/
theorem moved_readLines_above (above : List (List Char)) :
    movedOutcome #[] (pushedDown above.length) (readLines {} 1 above) = readLines {} 1 above := by
  cases above with
  | nil => rfl
  | cons raw above =>
    have hfirst : pushedDown (raw :: above).length 1 = 1 := by
      apply pushedDown_of_le
      rw [List.length_cons]
      omega
    have hnext : ∀ k ≥ 1, k + 1 < 1 + (raw :: above).length →
        pushedDown (raw :: above).length (k + 1) = pushedDown (raw :: above).length k + 1 := by
      intro k _ hlt
      rw [pushedDown_of_le (by omega), pushedDown_of_le (by omega)]
    -- nothing is read before the first line, and all numbers of lines stay as they are
    have hmoved := readLines_moved #[] (pushedDown_strictMono (raw :: above).length) {} hnext
    rw [hfirst] at hmoved
    exact hmoved.symm

/-- A line that says nothing moves the lines below it. -/
theorem readLines_insert {blank : List Char} (h : IsRemark blank) (above below : List (List Char)) :
    readLines {} 1 (above ++ blank :: below) =
      movedOutcome #[] (pushedDown above.length) (readLines {} 1 (above ++ below)) := by
  have habove := moved_readLines_above above
  rw [readLines_append, readLines_append]
  cases hread : readLines {} 1 above with
  | error fault =>
    rw [hread] at habove
    exact habove.symm
  | ok progress =>
    rw [hread] at habove
    have hmoved : progress.moved #[] (pushedDown above.length) = progress := Except.ok.inj habove
    have hline : pushedDown above.length (1 + above.length) = 1 + above.length + 1 :=
      pushedDown_of_lt (by omega)
    have hnext : ∀ k ≥ 1 + above.length, k + 1 < 1 + above.length + below.length →
        pushedDown above.length (k + 1) = pushedDown above.length k + 1 := by
      intro k hk _
      rw [pushedDown_of_lt (by omega), pushedDown_of_lt (by omega)]
    have hbelow := readLines_moved #[] (pushedDown_strictMono above.length) progress hnext
    rw [hmoved, hline] at hbelow
    show readLines progress (1 + above.length) (blank :: below) = _
    rw [readLines, readLine_of_isRemark h]
    exact hbelow

/-- The bodies are the same, and a fault is on the same line, unless it is that the listing ends. -/
theorem ofLines_insert {blank : List Char} (h : IsRemark blank) (above below : List (List Char)) :
    ofLines (above ++ blank :: below) = (ofLines (above ++ below)).mapError fun fault =>
      if fault.cause = .missingEnd then ⟨(above ++ blank :: below).length, .missingEnd⟩
      else fault.renumbered (pushedDown above.length) := by
  rw [ofLines, ofLines, readLines_insert h]
  cases hread : readLines {} 1 (above ++ below) with
  | error fault =>
    have hcause := cause_of_readLines hread
    show Except.error (fault.renumbered _) = Except.error (if fault.cause = .missingEnd then _ else _)
    rw [if_neg hcause]
  | ok progress =>
    obtain ⟨bodies, block⟩ := progress
    cases block with
    | some block => rfl
    | none =>
      show Except.ok (#[] ++ bodies).toList = Except.ok bodies.toList
      rw [Array.empty_append]

/-- **Remarks say nothing.**  If no string is left open on a line, any other remark may stand behind its
text: the bodies or the fault are the same.  A line that is nothing but a remark may be put in anywhere:
the bodies are the same, and the lines of a fault move down by one if they stand below it and by none if
they stand above, except that a missing end is reported on the last line there is. -/
theorem read_ignores_remarks (source source' : String) (above below : List (List Char)) :
    (∀ text remark remark', endsOutside .outside text = true →
      MayFollow text remark → MayFollow text remark' →
      lines source.toList = above ++ (text ++ remark) :: below →
      lines source'.toList = above ++ (text ++ remark') :: below →
        read source' = read source) ∧
    ∀ line, IsRemark line → lines source.toList = above ++ below →
      lines source'.toList = above ++ line :: below →
        (∀ bodies, read source = .ok bodies → read source' = .ok bodies) ∧
        ∀ fault, read source = .error fault →
          (fault.cause ≠ .missingEnd →
            read source' = .error (fault.renumbered (pushedDown above.length))) ∧
          (fault.cause = .missingEnd →
            read source' = .error ⟨(lines source'.toList).length, .missingEnd⟩) := by
  constructor
  · intro text remark remark' houtside hremark hremark' hsource hsource'
    rw [read, read, hsource, hsource']
    apply ofLines_congr
    rw [List.map_append, List.map_append, List.map_cons, List.map_cons,
      lineText_append houtside hremark, lineText_append houtside hremark']
  · intro line hline hsource hsource'
    rw [read, read, hsource, hsource', ofLines_insert hline]
    refine ⟨fun bodies hbodies => ?_, fun fault hfault => ⟨fun hcause => ?_, fun hcause => ?_⟩⟩
    · rw [hbodies]
      rfl
    · rw [hfault]
      exact congrArg Except.error (if_neg hcause)
    · rw [hfault]
      exact congrArg Except.error (if_pos hcause)

/-- Slashes in a string, and a label that ends in one and is placed nowhere. -/
def slashListing : String := ".method S\nldstr \"//\"\r\nbr a/\n.end"

/-- A comment behind the string, in place of the carriage return, changes nothing.  With a comment on a
line of its own the label is found one line further down, or on its line if the comment stands below; the
line of an end that is missing is the last one. -/
theorem slashListing_remarks :
    read slashListing = .error ⟨3, .labelNotPlaced "a/"⟩ ∧
    read ".method S\nldstr \"//\" // \"c\r\nbr a/\n.end" = read slashListing ∧
    read ".method S\n // \"\nldstr \"//\"\r\nbr a/\n.end" = .error ⟨4, .labelNotPlaced "a/"⟩ ∧
    read ".method S\nldstr \"//\"\r\nbr a/\n // \"\n.end" = .error ⟨3, .labelNotPlaced "a/"⟩ ∧
    read ".method S\n // \"" = .error ⟨2, .missingEnd⟩ ∧
    read "\n.method S\n.end" = .ok [Body.ofInstructions "S" [] []] := by
  have hread : read slashListing = .error ⟨3, .labelNotPlaced "a/"⟩ := by decide +kernel
  have hblank : ∀ c ∈ [' '], isBlank c = true := List.forall_mem_singleton.2 rfl
  have hcomment : IsRemark " // \"".toList :=
    (MayFollow.of_comment [] (List.cons_ne_nil ' ' []) hblank " \"".toList).isRemark
  have hreturn : MayFollow "ldstr \"//\"".toList "\r".toList :=
    ⟨⟨"\r".toList, [], rfl, List.forall_mem_singleton.2 rfl, Or.inl rfl⟩, nofun⟩
  refine ⟨hread, ?_, ?_, ?_, ?_, ?_⟩
  · exact (read_ignores_remarks slashListing _ [".method S".toList]
      ["br a/".toList, ".end".toList]).1 _ _ _ (by decide +kernel) hreturn
      (.of_comment _ (List.cons_ne_nil ' ' []) hblank " \"c\r".toList) (by decide +kernel)
      (by decide +kernel)
  · exact (((read_ignores_remarks slashListing _ [".method S".toList]
      ["ldstr \"//\"\r".toList, "br a/".toList, ".end".toList]).2 _ hcomment
      (by decide +kernel) (by decide +kernel)).2 _ hread).1 (by decide)
  · exact (((read_ignores_remarks slashListing _
      [".method S".toList, "ldstr \"//\"\r".toList, "br a/".toList]
      [".end".toList]).2 _ hcomment (by decide +kernel) (by decide +kernel)).2 _ hread).1 (by decide)
  · have hopen : read ".method S" = .error ⟨1, .missingEnd⟩ := by decide +kernel
    exact (((read_ignores_remarks ".method S" _ [".method S".toList] []).2 _ hcomment
      (by decide +kernel) (by decide +kernel)).2 _ hopen).2 rfl
  · have hread : read ".method S\n.end" = .ok [Body.ofInstructions "S" [] []] := by decide +kernel
    exact ((read_ignores_remarks ".method S\n.end" _ [] [".method S".toList, ".end".toList]).2 []
      ⟨[], [], rfl, List.forall_mem_nil _, Or.inl rfl⟩ (by decide +kernel) (by decide +kernel)).1 _ hread

end PushGuard.Listing
