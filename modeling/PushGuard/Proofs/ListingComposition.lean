import Mathlib.Order.Monotone.Defs
import PushGuard.Proofs.ListingLabels
import PushGuard.Proofs.TextReading

/-!
# Listings one behind the other

The reader keeps the numbers of lines only to report them, and compares them only to find the first of
two.  So what it does on a line is the same under other numbers as long as their order is kept, and
behind other bodies (`readLine_moved`).  Lines that follow each other do so under the other numbers too,
and what one line does all lines do (`readLines_moved`).

A listing that can be read leaves no method open, hence no table of labels.  What follows it is read as if
it stood alone, with its lines further down (`ofLines_append`).
-/

namespace PushGuard

/-- The fault with other numbers for the lines. -/
def LineFault.renumbered (move : Nat → Nat) : LineFault → LineFault
  | labelPlaced label line => labelPlaced label (move line)
  | cause => cause

/-- The fault is one of a line by itself, whatever the other lines are. -/
def LineFault.isOwn : LineFault → Bool
  | unknownOpcode _ | surplusOperand _ | missingOperand _ | switchLabels | handlerLabels _
  | unknownDirective _ | operand _ => true
  | _ => false

theorem LineFault.renumbered_of_isOwn (move : Nat → Nat) {cause : LineFault}
    (h : cause.isOwn = true) : cause.renumbered move = cause := by
  cases cause with
  | labelPlaced label line => cases h
  | _ => rfl

def ListingFault.renumbered (move : Nat → Nat) (fault : ListingFault) : ListingFault :=
  ⟨move fault.line, fault.cause.renumbered move⟩

namespace Listing

open Text

/-- The method with other numbers for its lines. -/
def Block.renumbered (move : Nat → Nat) (block : Block) : Block :=
  { block with
    placedOn := block.placedOn.map (Prod.map id move)
    namedOn := block.namedOn.map (Prod.map move id) }

/-- What is read behind these bodies, with other numbers for the lines. -/
def Progress.moved (front : Array Body) (move : Nat → Nat) (progress : Progress) : Progress :=
  ⟨front ++ progress.bodies, progress.block.map (Block.renumbered move)⟩

/-- The outcome behind these bodies, with other numbers for the lines. -/
def movedOutcome (front : Array Body) (move : Nat → Nat) :
    Except ListingFault Progress → Except ListingFault Progress
  | .ok progress => .ok (progress.moved front move)
  | .error fault => .error (fault.renumbered move)

/-! ## Lines on their own -/

theorem isOwn_of_readHandler {line : List Char} {cause : LineFault}
    (h : readHandler line = .error cause) : cause.isOwn = true := by
  unfold readHandler at h
  split at h
  · cases h
  · cases h
  · cases h
  · cases h
  · split at h
    · obtain rfl := Except.error.inj h
      rfl
    · obtain rfl := Except.error.inj h
      rfl
  · obtain rfl := Except.error.inj h
    rfl

theorem isOwn_of_readInstruction {line : List Char} {cause : LineFault}
    (h : readInstruction line = .error cause) : cause.isOwn = true := by
  unfold readInstruction at h
  simp only at h
  split at h
  · obtain rfl := Except.error.inj h
    rfl
  split at h
  · split at h
    · cases h
    · obtain rfl := Except.error.inj h
      rfl
  split at h
  · obtain rfl := Except.error.inj h
    rfl
  split at h
  · split at h
    · cases h
    · obtain rfl := Except.error.inj h
      rfl
  split at h
  · cases h
  split at h
  · cases h
  · obtain rfl := Except.error.inj h
    rfl

/-- A line that is malformed on its own is refused without a look at other lines. -/
theorem isOwn_of_readStatement {line : List Char} {cause : LineFault}
    (h : readStatement line = .error cause) : cause.isOwn = true := by
  unfold readStatement at h
  split at h
  · cases hread : readHandler line with
    | ok handler => rw [hread] at h; cases h
    | error cause' =>
      rw [hread] at h
      obtain rfl := Except.error.inj h
      exact isOwn_of_readHandler hread
  · cases hread : readInstruction line with
    | ok draft => rw [hread] at h; cases h
    | error cause' =>
      rw [hread] at h
      obtain rfl := Except.error.inj h
      exact isOwn_of_readInstruction hread

/-! ## Methods -/

namespace Block

theorem lookup_map_snd (f : Nat → Nat) (entries : List (String × Nat)) (label : String) :
    (entries.map (Prod.map id f)).lookup label = (entries.lookup label).map f := by
  induction entries with
  | nil => rfl
  | cons entry entries ih =>
    obtain ⟨other, n⟩ := entry
    rw [List.map_cons, Prod.map_apply, List.lookup_cons, List.lookup_cons, id, ih]
    split <;> rfl

/-- The method that a line leaves, or its fault, with other numbers for the lines. -/
def renumberedOutcome (move : Nat → Nat) : Except LineFault Block → Except LineFault Block
  | .ok block => .ok (block.renumbered move)
  | .error cause => .error (cause.renumbered move)

theorem place_renumbered (move : Nat → Nat) (block : Block) (line : Nat) (label : String) :
    (block.renumbered move).place (move line) label =
      renumberedOutcome move (block.place line label) := by
  unfold place
  have hlookup : (block.renumbered move).placedOn.lookup label =
      (block.placedOn.lookup label).map move := lookup_map_snd move block.placedOn label
  rw [hlookup]
  cases block.placedOn.lookup label with
  | none => rfl
  | some earlier => rfl

theorem add_renumbered (move : Nat → Nat) (block : Block) (line : Nat) (statement : Statement) :
    (block.renumbered move).add (move line) statement =
      (block.add line statement).renumbered move := by
  have hnamed : ∀ (labels : List String) (named : List (Nat × String)),
      labels.foldl (fun named label => (move line, label) :: named) (named.map (Prod.map move id)) =
        (labels.foldl (fun named label => (line, label) :: named) named).map (Prod.map move id) := by
    intro labels
    induction labels with
    | nil => intro named; rfl
    | cons label labels ih => intro named; exact ih ((line, label) :: named)
  unfold add renumbered
  rw [hnamed]

theorem readLine_renumbered (move : Nat → Nat) (block : Block) (line : Nat) (text : List Char) :
    (block.renumbered move).readLine (move line) text =
      renumberedOutcome move (block.readLine line text) := by
  have hadd : ∀ (block : Block) (text : List Char),
      (readStatement text >>= fun statement =>
        .ok ((block.renumbered move).add (move line) statement)) =
        renumberedOutcome move
          (readStatement text >>= fun statement => .ok (block.add line statement)) := by
    intro block text
    cases hread : readStatement text with
    | error cause =>
      show Except.error cause = Except.error (cause.renumbered move)
      rw [LineFault.renumbered_of_isOwn move (isOwn_of_readStatement hread)]
    | ok statement =>
      show Except.ok _ = Except.ok _
      rw [add_renumbered]
  unfold readLine
  split
  · exact hadd block text
  · next label rest hsplit =>
    rw [place_renumbered]
    cases block.place line label with
    | error cause => rfl
    | ok placed =>
      show (if (trim rest).isEmpty = true then _ else _) =
        renumberedOutcome move (if (trim rest).isEmpty = true then _ else _)
      split
      · rfl
      · exact hadd placed (trim rest)

theorem earlier_renumbered {move : Nat → Nat} (hmove : StrictMono move) (a b : Nat × String) :
    earlier (a.map move id) (b.map move id) = earlier a b := by
  simp only [earlier, Prod.map_fst, Prod.map_snd, id, hmove.lt_iff_lt, hmove.injective.beq_eq]

theorem firstUnplaced?_renumbered {move : Nat → Nat} (hmove : StrictMono move) (block : Block) :
    (block.renumbered move).firstUnplaced? = block.firstUnplaced?.map (Prod.map move id) := by
  have hplaced : ∀ label, ((block.renumbered move).placedOn.lookup label).isNone =
      (block.placedOn.lookup label).isNone := by
    intro label
    rw [renumbered, lookup_map_snd, Option.isNone_map]
  unfold firstUnplaced?
  simp only [hplaced]
  rw [renumbered, List.filter_map, List.foldl_map]
  -- the fold makes the same choices, since only the order of the lines counts
  show List.foldl _ (Option.map (Prod.map move id) none) _ = _
  apply List.foldl_hom
  rintro (_ | least) named
  · rfl
  · simp only [Option.map_some, earlier_renumbered hmove]
    split <;> rfl

theorem finish_renumbered {move : Nat → Nat} (hmove : StrictMono move) (block : Block)
    (line : Nat) :
    (block.renumbered move).finish (move line) =
      (block.finish line).mapError (.renumbered move) := by
  unfold finish
  rw [firstUnplaced?_renumbered hmove]
  cases block.firstUnplaced? with
  | some named => rfl
  | none =>
    have hbuilder : (block.renumbered move).builder = block.builder := rfl
    simp only [Option.map_none, hbuilder]
    cases block.builder.finish with
    | ok body => rfl
    | error fault => rfl

end Block

/-! ## Listings -/

/-- A line does the same under other numbers, and behind other bodies. -/
theorem readLine_moved (front : Array Body) {move : Nat → Nat} (hmove : StrictMono move)
    (progress : Progress) (line : Nat) (raw : List Char) :
    readLine (progress.moved front move) (move line) raw =
      movedOutcome front move (readLine progress line raw) := by
  obtain ⟨bodies, block⟩ := progress
  unfold readLine
  simp only
  split
  · rfl
  cases directive? ".method" (trim (stripComment .outside raw)) with
  | some name =>
    cases block with
    | some block => rfl
    | none =>
      simp only [Progress.moved, Option.map_none]
      split <;> rfl
  | none =>
    cases block with
    | none =>
      simp only [Progress.moved, Option.map_none]
      split <;> rfl
    | some block =>
      simp only [Progress.moved, Option.map_some]
      split
      · rw [Block.finish_renumbered hmove]
        cases block.finish line with
        | error fault => rfl
        | ok body =>
          show Except.ok _ = Except.ok _
          rw [Progress.moved, Array.push_append]
          rfl
      · rw [Block.readLine_renumbered]
        cases block.readLine line (trim (stripComment .outside raw)) with
        | error cause => rfl
        | ok block => rfl

/-- All lines do the same, if their numbers follow each other. -/
theorem readLines_moved (front : Array Body) {move : Nat → Nat} (hmove : StrictMono move)
    (progress : Progress) {line : Nat} {raws : List (List Char)}
    (hnext : ∀ k ≥ line, k + 1 < line + raws.length → move (k + 1) = move k + 1) :
    readLines (progress.moved front move) (move line) raws =
      movedOutcome front move (readLines progress line raws) := by
  induction raws generalizing progress line with
  | nil => rfl
  | cons raw raws ih =>
    rw [readLines, readLines, readLine_moved front hmove]
    cases readLine progress line raw with
    | error fault => rfl
    | ok progress =>
      show readLines (progress.moved front move) (move line + 1) raws = _
      -- the number that follows the last line is not looked at
      cases raws with
      | nil => rfl
      | cons next raws =>
        simp only [List.length_cons] at hnext ih
        rw [← hnext line (Nat.le_refl line) (by omega)]
        exact ih progress fun k hk hlt => hnext k (by omega) (by omega)

/-- A listing that can be read leaves its bodies and nothing else. -/
theorem readLines_of_ofLines {raws : List (List Char)} {bodies : List Body}
    (h : ofLines raws = .ok bodies) : readLines {} 1 raws = .ok ⟨bodies.toArray, none⟩ := by
  obtain ⟨read, hread⟩ := exists_readLines_of_ofLines h
  rw [ofLines, hread] at h
  obtain rfl : read.toList = bodies := Except.ok.inj h
  exact hread

/-- What follows a listing that can be read is read as if it stood alone. -/
theorem ofLines_append {a : List (List Char)} {ms : List Body} (h : ofLines a = .ok ms)
    (b : List (List Char)) :
    ofLines (a ++ b) = ((ofLines b).map (ms ++ ·)).mapError (.renumbered (· + a.length)) := by
  have hmove : StrictMono (· + a.length) := fun i j hij => Nat.add_lt_add_right hij _
  have hnext : ∀ k ≥ 1, k + 1 < 1 + b.length → k + 1 + a.length = k + a.length + 1 := by omega
  have hmoved := readLines_moved ms.toArray hmove {} hnext
  have hempty : ({} : Progress).moved ms.toArray (· + a.length) = ⟨ms.toArray, none⟩ := by
    rw [Progress.moved, Array.append_empty]
    rfl
  rw [hempty] at hmoved
  have hread : readLines {} 1 (a ++ b) =
      movedOutcome ms.toArray (· + a.length) (readLines {} 1 b) := by
    rw [readLines_append, readLines_of_ofLines h]
    exact hmoved
  rw [ofLines, ofLines, hread]
  cases readLines {} 1 b with
  | error fault => rfl
  | ok progress =>
    obtain ⟨bodies, block⟩ := progress
    cases block with
    | some block =>
      show Except.error _ = Except.error _
      rw [List.length_append, Nat.add_comm]
      rfl
    | none =>
      show Except.ok (ms.toArray ++ bodies).toList = Except.ok (ms ++ bodies.toList)
      rw [Array.toList_append]

/-- Only a method that is left open can be mended by what follows. -/
theorem ofLines_append_of_fault {a : List (List Char)} {fault : ListingFault}
    (h : ofLines a = .error fault) (hcause : fault.cause ≠ .missingEnd) (b : List (List Char)) :
    ofLines (a ++ b) = .error fault := by
  cases hread : readLines {} 1 a with
  | error fault' =>
    rw [ofLines, hread] at h
    obtain rfl := Except.error.inj h
    exact ofLines_append_of_error hread b
  | ok progress =>
    obtain ⟨bodies, block⟩ := progress
    rw [ofLines, hread] at h
    cases block with
    | none => cases h
    | some block =>
      obtain rfl := Except.error.inj h
      exact absurd rfl hcause

/-! ## One text behind the other -/

/-- The lines of one text, then those of another.  A line feed stands between them unless one ends the
first text. -/
def followedBy (a b : String) : String :=
  if a.toList.getLast?.all (· == '\n') then a ++ b else a ++ "\n" ++ b

theorem lines_followedBy (a b : String) :
    lines (followedBy a b).toList = lines a.toList ++ lines b.toList := by
  unfold followedBy
  split
  case isTrue hended => rw [String.toList_append, lines_append_of_ended hended]
  case isFalse hopen =>
    have hlast : ((a ++ "\n").toList.getLast?).all (· == '\n') = true := by
      rw [String.toList_append]
      simp
    rw [String.toList_append, lines_append_of_ended hlast, String.toList_append]
    exact congrArg (· ++ lines b.toList) (lines_concat_lineFeed (Bool.not_eq_true _ ▸ hopen))

/-- **Listings compose.**  Behind a listing that can be read, another is read as if it stood alone: its
bodies follow those that were read, or its fault is the same with its lines further down.  So no label
of the first is known in the second.  Nor does the second change what is wrong with the first, unless
that is a method that has not ended. -/
theorem read_followedBy (a b : String) :
    (∀ ms, read a = .ok ms →
      (∀ ns, read b = .ok ns → read (followedBy a b) = .ok (ms ++ ns)) ∧
      (∀ fault, read b = .error fault → read (followedBy a b) =
        .error (fault.renumbered (· + (lines a.toList).length)))) ∧
    (∀ fault, read a = .error fault → fault.cause ≠ .missingEnd →
      read (followedBy a b) = .error fault) := by
  have hread : read (followedBy a b) = ofLines (lines a.toList ++ lines b.toList) := by
    rw [read, lines_followedBy]
  rw [hread]
  refine ⟨fun ms hms => ⟨fun ns hns => ?_, fun fault hfault => ?_⟩, fun fault hfault hcause => ?_⟩
  · rw [read] at hns
    rw [ofLines_append hms, hns]
    rfl
  · rw [read] at hfault
    rw [ofLines_append hms, hfault]
    rfl
  · exact ofLines_append_of_fault hfault hcause _

/-- The label of `loopListing` again, placed twice. -/
def twiceListing : String := ".method Twice\ntop: nop\nbr.s top\ntop: ret\n.end\n"

/-- The labels of `loopListing` are free behind it, and a label that is placed twice is found there with
both of its lines. -/
theorem loopListing_followed :
    (read (followedBy loopListing loopListing) = .ok [loopBody, loopBody]) ∧
    (read twiceListing = .error ⟨4, .labelPlaced "top" 2⟩ ∧
      read (followedBy loopListing twiceListing) = .error ⟨13, .labelPlaced "top" 11⟩) ∧
    read (followedBy twiceListing loopListing) = .error ⟨4, .labelPlaced "top" 2⟩ := by
  have hloop : read loopListing = .ok [loopBody] := by decide +kernel
  have htwice : read twiceListing = .error ⟨4, .labelPlaced "top" 2⟩ := by decide +kernel
  have hlength : (lines loopListing.toList).length = 9 := by decide +kernel
  refine ⟨((read_followedBy loopListing loopListing).1 _ hloop).1 _ hloop, ⟨htwice, ?_⟩, ?_⟩
  · have hbehind := ((read_followedBy loopListing twiceListing).1 _ hloop).2 _ htwice
    rw [hlength] at hbehind
    exact hbehind
  · exact (read_followedBy twiceListing loopListing).2 _ htwice (by decide)

end Listing

end PushGuard
