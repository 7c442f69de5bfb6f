import PushGuard.Listing
import PushGuard.Proofs.LabelResolution

/-!
# The lines of a method

A line of a method says the same wherever it stands: it may place a label, and it may have an
instruction or the directive of a handler (`BlockLine.read`).  What depends on the other lines is
whether the label was placed before, and, at the end of the method, where the labels are that it names.

The first part describes a method by what its lines say, without the tables of the reader: which line
places a label, which lines name it, and how many instructions stand above a line.  `Block.Holds` says
that the reader has taken in just these lines.  One more line keeps this up (`Block.Holds.takes`) unless
it places a label for the second time, and the end of the method is read off the lines
(`Block.Holds.finish_eq_ok` and the two lemmas before it).
-/

namespace PushGuard.Listing

open Text

/-! ## What lines say -/

/-- What a line of a method says: the label that it places, and its instruction or directive. -/
structure BlockLine where
  label : Option String := none
  statement : Option Statement := none
  deriving DecidableEq

namespace BlockLine

/-- Reads a line on its own, without the other lines of its method. -/
def read (text : List Char) : Except LineFault BlockLine :=
  if text.isEmpty then .ok {}
  else match splitLabel? text with
    | none => (readStatement text).map fun statement => { statement := some statement }
    | some (label, rest) =>
      if (trim rest).isEmpty then .ok { label := some label }
      else (readStatement (trim rest)).map fun statement =>
        { label := some label, statement := some statement }

/-- The instruction on the line. -/
def draft? (l : BlockLine) : Option (Draft String) :=
  match l.statement with
  | some (.instruction draft) => some draft
  | _ => none

/-- The handler that the line declares. -/
def handler? (l : BlockLine) : Option (HandlerDraft String) :=
  match l.statement with
  | some (.handler handler) => some handler
  | _ => none

/-- The labels that the branch, the switch or the directive on the line names. -/
def names (l : BlockLine) : List String :=
  match l.statement with
  | some statement => statement.labels
  | none => []

/-- The instructions on these lines, in order. -/
def drafts (ls : List BlockLine) : List (Draft String) := ls.filterMap draft?

/-- The handlers on these lines, in order. -/
def handlers (ls : List BlockLine) : List (HandlerDraft String) := ls.filterMap handler?

/-- The line at `j` places the label. -/
def Places (ls : List BlockLine) (j : Nat) (label : String) : Prop :=
  ∃ l, ls[j]? = some l ∧ l.label = some label

/-- The line at `j` names the label. -/
def Names (ls : List BlockLine) (j : Nat) (label : String) : Prop :=
  ∃ l, ls[j]? = some l ∧ label ∈ l.names

/-- How many instructions stand on the lines above the one at `j`. -/
def above (ls : List BlockLine) (j : Nat) : Nat := (drafts (ls.take j)).length

/-- No label is placed on two lines. -/
def PlacedOnce (ls : List BlockLine) : Prop :=
  ∀ label j j', Places ls j label → Places ls j' label → j = j'

/-- The label is named, and no line places it. -/
def NeverPlaced (ls : List BlockLine) (label : String) : Prop :=
  (∃ j, Names ls j label) ∧ ∀ j, ¬ Places ls j label

/-- The label is named, and the last instruction stands above its place. -/
def PlacedAtEnd (ls : List BlockLine) (label : String) : Prop :=
  (∃ j, Names ls j label) ∧ ∃ j, Places ls j label ∧ above ls j = (drafts ls).length

/-! ## One line more -/

theorem exists_getElem?_concat_iff {α : Type} (p : α → Prop) (xs : List α) (x : α) (j : Nat) :
    (∃ y, (xs ++ [x])[j]? = some y ∧ p y) ↔
      (∃ y, xs[j]? = some y ∧ p y) ∨ (j = xs.length ∧ p x) := by
  rcases Nat.lt_trichotomy j xs.length with hlt | rfl | hgt
  · have hne : j ≠ xs.length := by omega
    rw [List.getElem?_append_left hlt]
    simp [hne]
  · simp
  · have hne : j ≠ xs.length := by omega
    have hlast : (xs ++ [x]).length ≤ j := by
      rw [List.length_append, List.length_singleton]
      omega
    have hxs : xs.length ≤ j := by omega
    rw [List.getElem?_eq_none hlast, List.getElem?_eq_none hxs]
    simp [hne]

theorem places_concat_iff (ls : List BlockLine) (l : BlockLine) (j : Nat) (label : String) :
    Places (ls ++ [l]) j label ↔ Places ls j label ∨ (j = ls.length ∧ l.label = some label) :=
  exists_getElem?_concat_iff (fun l : BlockLine => l.label = some label) ls l j

theorem names_concat_iff (ls : List BlockLine) (l : BlockLine) (j : Nat) (label : String) :
    Names (ls ++ [l]) j label ↔ Names ls j label ∨ (j = ls.length ∧ label ∈ l.names) :=
  exists_getElem?_concat_iff (fun l : BlockLine => label ∈ l.names) ls l j

theorem drafts_concat (ls : List BlockLine) (l : BlockLine) :
    drafts (ls ++ [l]) = drafts ls ++ l.draft?.toList := by
  unfold drafts
  rw [List.filterMap_append]
  cases hl : l.draft? <;> simp [hl]

theorem handlers_concat (ls : List BlockLine) (l : BlockLine) :
    handlers (ls ++ [l]) = handlers ls ++ l.handler?.toList := by
  unfold handlers
  rw [List.filterMap_append]
  cases hl : l.handler? <;> simp [hl]

theorem above_concat (ls : List BlockLine) (l : BlockLine) {j : Nat} (hj : j ≤ ls.length) :
    above (ls ++ [l]) j = above ls j := by
  unfold above
  rw [List.take_append_of_le_length hj]

theorem above_length (ls : List BlockLine) : above ls ls.length = (drafts ls).length := by
  unfold above
  rw [List.take_length]

/-- Lines that follow do not change what is placed. -/
theorem Places.append {ls : List BlockLine} {j : Nat} {label : String} (h : Places ls j label)
    (later : List BlockLine) : Places (ls ++ later) j label := by
  obtain ⟨l, hget, hlabel⟩ := h
  have hlt : j < ls.length := (List.getElem?_eq_some_iff.1 hget).1
  exact ⟨l, by rw [List.getElem?_append_left hlt, hget], hlabel⟩

theorem PlacedOnce.of_append {ls later : List BlockLine} (h : PlacedOnce (ls ++ later)) :
    PlacedOnce ls :=
  fun label j j' hj hj' => h label j j' (hj.append later) (hj'.append later)

theorem Places.lt_length {ls : List BlockLine} {j : Nat} {label : String} (h : Places ls j label) :
    j < ls.length := by
  obtain ⟨l, hget, -⟩ := h
  exact (List.getElem?_eq_some_iff.1 hget).1

/-- No more instructions stand above a line than there are. -/
theorem above_le (ls : List BlockLine) (j : Nat) : above ls j ≤ (drafts ls).length :=
  ((List.take_sublist j ls).filterMap draft?).length_le

/-- The labels that are named are those of the instructions and those of the handlers. -/
theorem mem_labels_iff (ls : List BlockLine) (label : String) :
    label ∈ (drafts ls).flatMap Draft.labels ++ (handlers ls).flatMap HandlerDraft.labels ↔
      ∃ j, Names ls j label := by
  have hline : ∀ l : BlockLine, label ∈ l.names ↔
      (∃ d, l.draft? = some d ∧ label ∈ d.labels) ∨ ∃ h, l.handler? = some h ∧ label ∈ h.labels := by
    rintro ⟨_, statement⟩
    rcases statement with _ | ⟨_ | _ | _⟩ | _ <;>
      simp [names, draft?, handler?, Statement.labels, Draft.labels, HandlerDraft.labels]
  have hmem : (∃ j, Names ls j label) ↔ ∃ l ∈ ls, label ∈ l.names := by
    constructor
    · rintro ⟨j, l, hget, hlabel⟩
      exact ⟨l, List.mem_of_getElem? hget, hlabel⟩
    · rintro ⟨l, hl, hlabel⟩
      obtain ⟨j, hget⟩ := List.mem_iff_getElem?.1 hl
      exact ⟨j, l, hget, hlabel⟩
  rw [hmem]
  simp only [hline, drafts, handlers, List.mem_append, List.mem_flatMap, List.mem_filterMap]
  constructor
  · rintro (⟨d, ⟨l, hl, hd⟩, hlabel⟩ | ⟨h, ⟨l, hl, hh⟩, hlabel⟩)
    · exact ⟨l, hl, Or.inl ⟨d, hd, hlabel⟩⟩
    · exact ⟨l, hl, Or.inr ⟨h, hh, hlabel⟩⟩
  · rintro ⟨l, hl, ⟨d, hd, hlabel⟩ | ⟨h, hh, hlabel⟩⟩
    · exact Or.inl ⟨d, ⟨l, hl, hd⟩, hlabel⟩
    · exact Or.inr ⟨h, ⟨l, hl, hh⟩, hlabel⟩

end BlockLine

/-! ## Taking in a line -/

namespace Block

theorem mem_namedOn_add_iff (block : Block) (line : Nat) (statement : Statement)
    (named : Nat × String) :
    named ∈ (block.add line statement).namedOn ↔
      named ∈ block.namedOn ∨ (named.1 = line ∧ named.2 ∈ statement.labels) := by
  have hfold : ∀ (labels : List String) (before : List (Nat × String)),
      named ∈ labels.foldl (fun named label => (line, label) :: named) before ↔
        named ∈ before ∨ (named.1 = line ∧ named.2 ∈ labels) := by
    intro labels
    induction labels with
    | nil => simp
    | cons label labels ih =>
      intro before
      rw [List.foldl_cons, ih, List.mem_cons, List.mem_cons, Prod.ext_iff]
      tauto
  exact hfold statement.labels block.namedOn

theorem lookup_cons_eq_ite (label other : String) (n : Nat) (entries : List (String × Nat)) :
    List.lookup other ((label, n) :: entries) =
      if some label = some other then some n else List.lookup other entries := by
  by_cases hother : label = other
  · subst hother
    simp
  · simp [List.lookup_cons, hother, beq_eq_false_iff_ne.2 (Ne.symm hother)]

/-- The block with what a line says behind its label, if it says anything. -/
def addOptional (block : Block) (line : Nat) : Option Statement → Block
  | some statement => block.add line statement
  | none => block

/-- The block with a line more: first comes its label, then its instruction or directive. -/
def take (block : Block) (line : Nat) (l : BlockLine) : Except LineFault Block :=
  match l.label with
  | some label => (block.place line label).map fun block => block.addOptional line l.statement
  | none => .ok (block.addOptional line l.statement)

/-- What a line that is taken in does to the block. -/
structure Takes (block : Block) (line : Nat) (l : BlockLine) (block' : Block) : Prop where
  fresh : ∀ label, l.label = some label → block.placedOn.lookup label = none
  name : block'.builder.name = block.builder.name
  drafts : block'.builder.drafts.toList = block.builder.drafts.toList ++ l.draft?.toList
  handlers : block'.builder.handlers.toList = block.builder.handlers.toList ++ l.handler?.toList
  place? : ∀ label, block'.builder.place? label =
    if l.label = some label then some block.builder.drafts.size else block.builder.place? label
  placedOn : ∀ label, block'.placedOn.lookup label =
    if l.label = some label then some line else block.placedOn.lookup label
  namedOn : ∀ named, named ∈ block'.namedOn ↔
    named ∈ block.namedOn ∨ (named.1 = line ∧ named.2 ∈ l.names)

theorem takes_addOptional (block : Block) (line : Nat) (statement : Option Statement) :
    block.Takes line { statement } (block.addOptional line statement) := by
  cases statement with
  | none => constructor <;> simp [addOptional, BlockLine.draft?, BlockLine.handler?, BlockLine.names]
  | some statement =>
    have hnamed := block.mem_namedOn_add_iff line statement
    cases statement with
    | instruction draft =>
      refine ⟨by simp, rfl, ?_, ?_, by intro label; rfl, by intro label; rfl, hnamed⟩
      · simp [addOptional, add, Builder.emit, BlockLine.draft?]
      · simp [addOptional, add, Builder.emit, BlockLine.handler?]
    | handler handler =>
      refine ⟨by simp, rfl, ?_, ?_, by intro label; rfl, by intro label; rfl, hnamed⟩
      · simp [addOptional, add, Builder.addHandler, BlockLine.draft?]
      · simp [addOptional, add, Builder.addHandler, BlockLine.handler?]

/-- A line is taken in unless it places a label that was placed before. -/
theorem take_cases (block : Block) (line : Nat) (l : BlockLine) :
    (∃ label earlier, l.label = some label ∧ block.placedOn.lookup label = some earlier ∧
        block.take line l = .error (.labelPlaced label earlier)) ∨
      ∃ block', block.take line l = .ok block' ∧ block.Takes line l block' := by
  obtain ⟨label, statement⟩ := l
  cases label with
  | none => exact Or.inr ⟨_, rfl, block.takes_addOptional line statement⟩
  | some label =>
    cases hearlier : block.placedOn.lookup label with
    | some earlier =>
      refine Or.inl ⟨label, earlier, rfl, hearlier, ?_⟩
      show (block.place line label).map _ = _
      rw [place, hearlier]
      rfl
    | none =>
      let placed : Block := { block with
        builder := block.builder.place label
        placedOn := (label, line) :: block.placedOn }
      have hrest := placed.takes_addOptional line statement
      refine Or.inr ⟨placed.addOptional line statement, ?_, ?_⟩
      · show (block.place line label).map _ = _
        rw [place, hearlier]
        rfl
      · refine ⟨?_, hrest.name, hrest.drafts, hrest.handlers, ?_, ?_, hrest.namedOn⟩
        · rintro _ ⟨⟩
          exact hearlier
        · intro other
          rw [hrest.place?, if_neg (by simp)]
          exact lookup_cons_eq_ite label other _ block.builder.placed
        · intro other
          rw [hrest.placedOn, if_neg (by simp)]
          exact lookup_cons_eq_ite label other line block.placedOn

/-- The block has taken in these lines, of which the first has the number `first`. -/
structure Holds (name : String) (first : Nat) (ls : List BlockLine) (block : Block) : Prop where
  name : block.builder.name = name
  drafts : block.builder.drafts.toList = BlockLine.drafts ls
  handlers : block.builder.handlers.toList = BlockLine.handlers ls
  once : BlockLine.PlacedOnce ls
  place?_iff : ∀ label k, block.builder.place? label = some k ↔
    ∃ j, BlockLine.Places ls j label ∧ k = BlockLine.above ls j
  placedOn_iff : ∀ label line, block.placedOn.lookup label = some line ↔
    ∃ j, BlockLine.Places ls j label ∧ line = first + j
  namedOn_iff : ∀ line label, (line, label) ∈ block.namedOn ↔
    ∃ j, BlockLine.Names ls j label ∧ line = first + j

namespace Holds

variable {name : String} {first : Nat} {ls : List BlockLine} {block : Block}

theorem start (name : String) (first : Nat) : Holds name first [] { builder := { name } } where
  name := rfl
  drafts := rfl
  handlers := rfl
  once := by
    rintro label j j' ⟨l, hget, -⟩
    simp at hget
  place?_iff := by simp [Builder.place?, BlockLine.Places]
  placedOn_iff := by simp [BlockLine.Places]
  namedOn_iff := by simp [BlockLine.Names]

theorem size_drafts (h : Holds name first ls block) :
    block.builder.drafts.size = (BlockLine.drafts ls).length := by
  rw [← h.drafts, Array.length_toList]

theorem lookup_eq_none_iff (h : Holds name first ls block) (label : String) :
    block.placedOn.lookup label = none ↔ ∀ j, ¬ BlockLine.Places ls j label := by
  rw [Option.eq_none_iff_forall_ne_some]
  constructor
  · intro hnone j hplaces
    exact hnone _ ((h.placedOn_iff label (first + j)).2 ⟨j, hplaces, rfl⟩)
  · intro hnone line hline
    obtain ⟨j, hplaces, -⟩ := (h.placedOn_iff label line).1 hline
    exact hnone j hplaces

/-- A line that places its label for the first time leaves all labels placed once. -/
theorem placedOnce_concat (h : Holds name first ls block) {l : BlockLine}
    (hfresh : ∀ label, l.label = some label → block.placedOn.lookup label = none) :
    BlockLine.PlacedOnce (ls ++ [l]) := by
  intro label j j' hj hj'
  rw [BlockLine.places_concat_iff] at hj hj'
  rcases hj with hj | ⟨rfl, hl⟩
  · rcases hj' with hj' | ⟨rfl, hl⟩
    · exact h.once label j j' hj hj'
    · exact absurd hj ((h.lookup_eq_none_iff label).1 (hfresh label hl) j)
  · rcases hj' with hj' | ⟨rfl, -⟩
    · exact absurd hj' ((h.lookup_eq_none_iff label).1 (hfresh label hl) j')
    · rfl

/-- One line more. -/
theorem takes (h : Holds name first ls block) {l : BlockLine} {block' : Block}
    (htakes : block.Takes (first + ls.length) l block') :
    Holds name first (ls ++ [l]) block' where
  name := htakes.name.trans h.name
  drafts := by rw [htakes.drafts, h.drafts, BlockLine.drafts_concat]
  handlers := by rw [htakes.handlers, h.handlers, BlockLine.handlers_concat]
  once := h.placedOnce_concat htakes.fresh
  place?_iff := by
    intro label k
    simp only [BlockLine.places_concat_iff]
    rw [htakes.place?]
    by_cases hl : l.label = some label
    · -- the label stands on the new line and on no other
      have hnone := (h.lookup_eq_none_iff label).1 (htakes.fresh label hl)
      have habove := BlockLine.above_concat ls l (Nat.le_refl ls.length)
      rw [if_pos hl, h.size_drafts, ← BlockLine.above_length, ← habove]
      simp [hl, hnone, eq_comm]
    · rw [if_neg hl, h.place?_iff]
      simp only [hl, and_false, or_false]
      constructor
      · rintro ⟨j, hj, rfl⟩
        exact ⟨j, hj, (BlockLine.above_concat ls l (Nat.le_of_lt hj.lt_length)).symm⟩
      · rintro ⟨j, hj, rfl⟩
        exact ⟨j, hj, BlockLine.above_concat ls l (Nat.le_of_lt hj.lt_length)⟩
  placedOn_iff := by
    intro label line
    simp only [BlockLine.places_concat_iff]
    rw [htakes.placedOn]
    by_cases hl : l.label = some label
    · have hnone := (h.lookup_eq_none_iff label).1 (htakes.fresh label hl)
      rw [if_pos hl]
      simp [hl, hnone, eq_comm]
    · rw [if_neg hl, h.placedOn_iff]
      simp [hl]
  namedOn_iff := by
    intro line label
    simp only [BlockLine.names_concat_iff]
    rw [htakes.namedOn, h.namedOn_iff]
    constructor
    · rintro (⟨j, hj, rfl⟩ | ⟨rfl, hl⟩)
      · exact ⟨j, Or.inl hj, rfl⟩
      · exact ⟨ls.length, Or.inr ⟨rfl, hl⟩, rfl⟩
    · rintro ⟨j, hj | ⟨rfl, hl⟩, rfl⟩
      · exact Or.inl ⟨j, hj, rfl⟩
      · exact Or.inr ⟨rfl, hl⟩

/-- A line that places a label for the second time is refused. -/
theorem take_cases (h : Holds name first ls block) (l : BlockLine) :
    (∃ cause, block.take (first + ls.length) l = .error cause ∧
        ¬ BlockLine.PlacedOnce (ls ++ [l])) ∨
      ∃ block', block.take (first + ls.length) l = .ok block' ∧
        Holds name first (ls ++ [l]) block' := by
  rcases block.take_cases (first + ls.length) l with
    ⟨label, earlier, hl, hearlier, htake⟩ | ⟨block', htake, htakes⟩
  · refine Or.inl ⟨_, htake, fun honce => ?_⟩
    obtain ⟨j, hj, -⟩ := (h.placedOn_iff label earlier).1 hearlier
    have heq : j = ls.length := honce label j ls.length
      ((BlockLine.places_concat_iff ls l j label).2 (Or.inl hj))
      ((BlockLine.places_concat_iff ls l ls.length label).2 (Or.inr ⟨rfl, hl⟩))
    have hlt := hj.lt_length
    omega
  · exact Or.inr ⟨block', htake, h.takes htakes⟩

end Holds

/-! ## The end of a method -/

/-- The fold keeps one of the names that no other precedes. -/
theorem exists_least_of_foldl (named : List (Nat × String)) (start : Nat × String) :
    ∃ least, named.foldl (fun least named => match least with
        | none => some named
        | some least => some (if earlier named least then named else least)) (some start) =
          some least ∧ least ∈ start :: named ∧ ∀ other ∈ start :: named, least.1 ≤ other.1 := by
  induction named generalizing start with
  | nil => exact ⟨start, rfl, List.mem_singleton_self start, by simp⟩
  | cons next named ih =>
    obtain ⟨least, hfold, hmem, hle⟩ := ih (if earlier next start then next else start)
    refine ⟨least, hfold, ?_, ?_⟩
    · rcases List.mem_cons.1 hmem with heq | hmem
      · rw [heq]
        split <;> simp
      · exact List.mem_cons_of_mem _ (List.mem_cons_of_mem _ hmem)
    · have hmin : least.1 ≤ start.1 ∧ least.1 ≤ next.1 := by
        have hfirst := hle _ List.mem_cons_self
        by_cases hearlier : earlier next start = true
        · rw [if_pos hearlier] at hfirst
          have hnext : next.1 ≤ start.1 := by
            simp only [earlier, Bool.or_eq_true, decide_eq_true_eq, Bool.and_eq_true,
              beq_iff_eq] at hearlier
            omega
          omega
        · rw [if_neg hearlier] at hfirst
          have hstart : start.1 ≤ next.1 := by
            simp only [earlier, Bool.or_eq_true, decide_eq_true_eq, Bool.and_eq_true,
              beq_iff_eq] at hearlier
            omega
          omega
      intro other hother
      rcases List.mem_cons.1 hother with rfl | hother
      · exact hmin.1
      · rcases List.mem_cons.1 hother with rfl | hother
        · exact hmin.2
        · exact hle other (List.mem_cons_of_mem _ hother)

/-- Either all labels that are named are placed, or the one is found that is named first. -/
theorem firstUnplaced?_cases (block : Block) :
    (block.firstUnplaced? = none ∧
        ∀ named ∈ block.namedOn, block.placedOn.lookup named.2 ≠ none) ∨
      ∃ named, block.firstUnplaced? = some named ∧ named ∈ block.namedOn ∧
        block.placedOn.lookup named.2 = none ∧
        ∀ other ∈ block.namedOn, block.placedOn.lookup other.2 = none → named.1 ≤ other.1 := by
  have hmem : ∀ named, named ∈ block.namedOn.filter
      (fun named => (block.placedOn.lookup named.2).isNone) ↔
        named ∈ block.namedOn ∧ block.placedOn.lookup named.2 = none := by
    simp
  have hfirst : block.firstUnplaced? = (block.namedOn.filter
      fun named => (block.placedOn.lookup named.2).isNone).foldl
        (fun least named => match least with
          | none => some named
          | some least => some (if earlier named least then named else least)) none := rfl
  rw [hfirst]
  cases hunplaced : block.namedOn.filter
      (fun named => (block.placedOn.lookup named.2).isNone) with
  | nil =>
    refine Or.inl ⟨rfl, fun named hnamed hnone => ?_⟩
    have := (hmem named).2 ⟨hnamed, hnone⟩
    rw [hunplaced] at this
    cases this
  | cons start rest =>
    obtain ⟨least, hfold, hleast, hle⟩ := exists_least_of_foldl rest start
    rw [hunplaced] at hmem
    refine Or.inr ⟨least, hfold, ((hmem least).1 hleast).1, ((hmem least).1 hleast).2, ?_⟩
    intro other hother hnone
    exact hle other ((hmem other).2 ⟨hother, hnone⟩)

namespace Holds

variable {name : String} {first : Nat} {ls : List BlockLine} {block : Block}

/-- A label that is never placed is reported on the first line that names such a label. -/
theorem finish_of_neverPlaced (h : Holds name first ls block) (last : Nat)
    (hnever : ∃ label, BlockLine.NeverPlaced ls label) :
    ∃ j label, block.finish last = .error ⟨first + j, .labelNotPlaced label⟩ ∧
      BlockLine.Names ls j label ∧ BlockLine.NeverPlaced ls label ∧
      ∀ j' other, BlockLine.Names ls j' other → BlockLine.NeverPlaced ls other → j ≤ j' := by
  rcases block.firstUnplaced?_cases with ⟨-, hplaced⟩ | ⟨⟨line, label⟩, hfirst, hnamed, hnone, hle⟩
  · obtain ⟨label, ⟨j, hnames⟩, hnot⟩ := hnever
    have hnamed := (h.namedOn_iff (first + j) label).2 ⟨j, hnames, rfl⟩
    exact absurd ((h.lookup_eq_none_iff label).2 hnot) (hplaced _ hnamed)
  · obtain ⟨j, hnames, rfl⟩ := (h.namedOn_iff line label).1 hnamed
    refine ⟨j, label, ?_, hnames, ⟨⟨j, hnames⟩, (h.lookup_eq_none_iff label).1 hnone⟩, ?_⟩
    · rw [finish, hfirst]
    · intro j' other hnames' hnever'
      have hother := (h.namedOn_iff (first + j') other).2 ⟨j', hnames', rfl⟩
      have hline : first + j ≤ first + j' :=
        hle _ hother ((h.lookup_eq_none_iff other).2 hnever'.2)
      omega

/-- If all labels are placed, it is the builder that says whether the method can end. -/
theorem finish_of_placed (h : Holds name first ls block) (last : Nat)
    (hplaced : ∀ label, ¬ BlockLine.NeverPlaced ls label) :
    block.finish last = block.builder.finish.mapError fun _ => ⟨last, .labelAtEnd⟩ := by
  rcases block.firstUnplaced?_cases with ⟨hfirst, -⟩ | ⟨⟨line, label⟩, -, hnamed, hnone, -⟩
  · rw [finish, hfirst]
    cases block.builder.finish with
    | ok body => rfl
    | error e => rfl
  · obtain ⟨j, hnames, -⟩ := (h.namedOn_iff line label).1 hnamed
    exact absurd ⟨⟨j, hnames⟩, (h.lookup_eq_none_iff label).1 hnone⟩ (hplaced label)

theorem mem_labels_iff (h : Holds name first ls block) (label : String) :
    label ∈ block.builder.labels ↔ ∃ j, BlockLine.Names ls j label := by
  rw [Builder.labels, h.drafts, h.handlers]
  exact BlockLine.mem_labels_iff ls label

theorem resolve_eq_ok_iff (h : Holds name first ls block) (label : String) (k : Nat) :
    block.builder.resolve label = .ok k ↔
      (∃ j, BlockLine.Places ls j label ∧ k = BlockLine.above ls j) ∧
        k < (BlockLine.drafts ls).length := by
  rw [Builder.resolve_eq_ok_iff, h.place?_iff, h.size_drafts]

theorem finish_of_placedAtEnd (h : Holds name first ls block) (last : Nat)
    (hplaced : ∀ label, ¬ BlockLine.NeverPlaced ls label)
    (hend : ∃ label, BlockLine.PlacedAtEnd ls label) :
    block.finish last = .error ⟨last, .labelAtEnd⟩ := by
  obtain ⟨label, hnames, j, hj, habove⟩ := hend
  have hfails : ¬ ∀ label ∈ block.builder.labels, ∃ k, block.builder.resolve label = .ok k := by
    intro hall
    obtain ⟨k, hk⟩ := hall label ((h.mem_labels_iff label).2 hnames)
    obtain ⟨⟨j', hj', rfl⟩, hlt⟩ := (h.resolve_eq_ok_iff label k).1 hk
    obtain rfl := h.once label j j' hj hj'
    omega
  obtain ⟨e, he⟩ := block.builder.finish_resolvesInTurn.exists_error hfails
  rw [h.finish_of_placed last hplaced, he]
  rfl

/-- Otherwise each label is the number of the instructions above its place. -/
theorem finish_eq_ok (h : Holds name first ls block) (last : Nat)
    (hplaced : ∀ label, ¬ BlockLine.NeverPlaced ls label)
    (hend : ∀ label, ¬ BlockLine.PlacedAtEnd ls label) :
    ∃ place : String → Nat,
      (∀ label j, (∃ j', BlockLine.Names ls j' label) → BlockLine.Places ls j label →
        place label = BlockLine.above ls j ∧ place label < (BlockLine.drafts ls).length) ∧
      block.finish last = .ok (Body.ofInstructions name
        ((BlockLine.drafts ls).map fun draft => draft.resolved place)
        ((BlockLine.handlers ls).map fun handler => handler.resolved place)) := by
  have hresolves : ∀ label ∈ block.builder.labels, ∃ k, block.builder.resolve label = .ok k := by
    intro label hlabel
    have hnames := (h.mem_labels_iff label).1 hlabel
    have hex : ∃ j, BlockLine.Places ls j label := by
      by_contra hnone
      exact hplaced label ⟨hnames, not_exists.1 hnone⟩
    obtain ⟨j, hj⟩ := hex
    have hle := BlockLine.above_le ls j
    have hne : BlockLine.above ls j ≠ (BlockLine.drafts ls).length :=
      fun heq => hend label ⟨hnames, j, hj, heq⟩
    exact ⟨BlockLine.above ls j, (h.resolve_eq_ok_iff label _).2 ⟨⟨j, hj, rfl⟩, by omega⟩⟩
  obtain ⟨place, hplace⟩ := ResolvesInTurn.exists_places hresolves
  refine ⟨place, ?_, ?_⟩
  · intro label j hnames hj
    have hlabel := hplace label ((h.mem_labels_iff label).2 hnames)
    obtain ⟨⟨j', hj', hk⟩, hlt⟩ := (h.resolve_eq_ok_iff label _).1 hlabel
    obtain rfl := h.once label j j' hj hj'
    exact ⟨hk, hlt⟩
  · rw [h.finish_of_placed last hplaced, block.builder.finish_resolvesInTurn.ok place hplace, h.name,
      h.drafts, h.handlers]
    rfl

end Holds

end Block

/-! ## The lines of a listing -/

/-- What stands on a line apart from its comment. -/
def lineText (raw : List Char) : List Char := trim (stripComment .outside raw)

/-- The line is none that opens or ends a method, and is well formed on its own. -/
structure Says (raw : List Char) (l : BlockLine) : Prop where
  noMethod : directive? ".method" (lineText raw) = none
  noEnd : lineText raw ≠ ".end".toList
  read : BlockLine.read (lineText raw) = .ok l

instance (raw : List Char) (l : BlockLine) : Decidable (Says raw l) :=
  decidable_of_iff (directive? ".method" (lineText raw) = none ∧ lineText raw ≠ ".end".toList ∧
      BlockLine.read (lineText raw) = .ok l)
    ⟨fun ⟨noMethod, noEnd, read⟩ => ⟨noMethod, noEnd, read⟩,
      fun h => ⟨h.noMethod, h.noEnd, h.read⟩⟩

/-- A block takes in what the line says on its own. -/
theorem Block.readLine_eq_take (block : Block) (line : Nat) {text : List Char} {l : BlockLine}
    (hne : text.isEmpty = false) (hread : BlockLine.read text = .ok l) :
    block.readLine line text = block.take line l := by
  unfold BlockLine.read at hread
  rw [if_neg (by simp [hne])] at hread
  unfold readLine
  cases hsplit : splitLabel? text with
  | none =>
    simp only [hsplit] at hread ⊢
    obtain ⟨statement, hstatement, rfl⟩ := (map_eq_ok_iff _ _ _).1 hread
    rw [hstatement]
    rfl
  | some split =>
    obtain ⟨label, rest⟩ := split
    simp only [hsplit] at hread ⊢
    by_cases hrest : (trim rest).isEmpty = true
    · rw [if_pos hrest] at hread
      obtain rfl := Except.ok.inj hread
      show _ = (block.place line label).map _
      cases block.place line label with
      | error cause => rfl
      | ok block =>
        show (if (trim rest).isEmpty = true then _ else _) = _
        rw [if_pos hrest]
        rfl
    · rw [if_neg hrest] at hread
      obtain ⟨statement, hstatement, rfl⟩ := (map_eq_ok_iff _ _ _).1 hread
      show _ = (block.place line label).map _
      cases block.place line label with
      | error cause => rfl
      | ok block =>
        show (if (trim rest).isEmpty = true then _ else _) = _
        rw [if_neg hrest, hstatement]
        rfl

/-- What a block takes in is well formed on its own. -/
theorem Block.exists_read_of_readLine {block block' : Block} {line : Nat} {text : List Char}
    (hne : text.isEmpty = false) (h : block.readLine line text = .ok block') :
    ∃ l, BlockLine.read text = .ok l := by
  unfold BlockLine.read
  rw [if_neg (by simp [hne])]
  unfold readLine at h
  cases hsplit : splitLabel? text with
  | none =>
    simp only [hsplit, bind_eq_ok_iff] at h ⊢
    obtain ⟨statement, hstatement, -⟩ := h
    rw [hstatement]
    exact ⟨_, rfl⟩
  | some split =>
    obtain ⟨label, rest⟩ := split
    simp only [hsplit, bind_eq_ok_iff] at h ⊢
    obtain ⟨placed, -, h⟩ := h
    by_cases hrest : (trim rest).isEmpty = true
    · rw [if_pos hrest]
      exact ⟨_, rfl⟩
    · rw [if_neg hrest, bind_eq_ok_iff] at h
      obtain ⟨statement, hstatement, -⟩ := h
      rw [if_neg hrest, hstatement]
      exact ⟨_, rfl⟩

theorem Says.readLine_eq {raw : List Char} {l : BlockLine} (h : Says raw l) (bodies : Array Body)
    (block : Block) (line : Nat) :
    readLine ⟨bodies, some block⟩ line raw =
      ((block.take line l).map fun block' => ⟨bodies, some block'⟩).mapError fun cause =>
        ⟨line, cause⟩ := by
  obtain ⟨hmethod, hend, hread⟩ := h
  unfold lineText at hmethod hend hread
  unfold readLine
  cases hempty : (trim (stripComment .outside raw)).isEmpty with
  | true =>
    have hblank : BlockLine.read (trim (stripComment .outside raw)) = .ok {} := by
      rw [BlockLine.read, if_pos hempty]
    obtain rfl := Except.ok.inj (hread.symm.trans hblank)
    simp only [hempty, if_true]
    rfl
  | false =>
    simp only [hempty, Bool.false_eq_true, if_false, hmethod, if_neg hend,
      block.readLine_eq_take line hempty hread]
    cases block.take line l with
    | error cause => rfl
    | ok block' => rfl

theorem exists_says_of_readLine {raw : List Char} {bodies : Array Body} {block : Block} {line : Nat}
    {progress : Progress} (hend : lineText raw ≠ ".end".toList)
    (h : readLine ⟨bodies, some block⟩ line raw = .ok progress) : ∃ l, Says raw l := by
  unfold lineText at hend
  unfold readLine at h
  cases hempty : (trim (stripComment .outside raw)).isEmpty with
  | true =>
    have hblank : lineText raw = [] := List.isEmpty_iff.1 hempty
    exact ⟨{}, by rw [hblank]; rfl, hend, by rw [hblank]; rfl⟩
  | false =>
    simp only [hempty, Bool.false_eq_true, if_false] at h
    cases hmethod : directive? ".method" (trim (stripComment .outside raw)) with
    | some name => simp only [hmethod] at h; cases h
    | none =>
      simp only [hmethod, if_neg hend] at h
      cases hread : block.readLine line (trim (stripComment .outside raw)) with
      | error cause => simp only [hread] at h; cases h
      | ok block' =>
        obtain ⟨l, hl⟩ := Block.exists_read_of_readLine hempty hread
        exact ⟨l, hmethod, hend, hl⟩

theorem readLines_append (progress : Progress) (line : Nat) (front back : List (List Char)) :
    readLines progress line (front ++ back) =
      (readLines progress line front >>= fun progress =>
        readLines progress (line + front.length) back) := by
  induction front generalizing progress line with
  | nil => rfl
  | cons raw front ih =>
    rw [List.cons_append, readLines, readLines, List.length_cons, Nat.add_comm front.length,
      ← Nat.add_assoc]
    cases readLine progress line raw with
    | error fault => rfl
    | ok progress => exact ih progress (line + 1)

/-- What a line keeps is kept by all lines. -/
theorem readLines_invariant (Inv : Nat → Progress → Prop)
    (hstep : ∀ line progress raw progress', Inv line progress →
      readLine progress line raw = .ok progress' → Inv (line + 1) progress')
    {raws : List (List Char)} {progress progress' : Progress} {line : Nat}
    (hprogress : Inv line progress) (h : readLines progress line raws = .ok progress') :
    Inv (line + raws.length) progress' := by
  induction raws generalizing progress line with
  | nil =>
    obtain rfl := Except.ok.inj h
    exact hprogress
  | cons raw raws ih =>
    rw [readLines, bind_eq_ok_iff] at h
    obtain ⟨next, hnext, h⟩ := h
    rw [List.length_cons, Nat.add_comm raws.length, ← Nat.add_assoc]
    exact ih (hstep line progress raw next hprogress hnext) h

/-- Lines are refused for one of them, in front of which all were read. -/
theorem exists_line_of_readLines {raws : List (List Char)} {progress : Progress} {line : Nat}
    {fault : ListingFault} (h : readLines progress line raws = .error fault) :
    ∃ front raw back next, raws = front ++ raw :: back ∧
      readLines progress line front = .ok next ∧
      readLine next (line + front.length) raw = .error fault := by
  induction raws generalizing progress line with
  | nil => cases h
  | cons raw raws ih =>
    rw [readLines, bind_eq_error_iff] at h
    rcases h with h | ⟨next, hnext, h⟩
    · exact ⟨[], raw, raws, progress, rfl, rfl, h⟩
    · obtain ⟨front, raw', back, last, rfl, hfront, hraw'⟩ := ih h
      refine ⟨raw :: front, raw', back, last, rfl, ?_, ?_⟩
      · rw [readLines, hnext]
        exact hfront
      · rw [List.length_cons, Nat.add_comm front.length, ← Nat.add_assoc]
        exact hraw'

/-- Lines that are well formed on their own are taken in, unless they place a label twice. -/
theorem readLines_inside_cases {raws : List (List Char)} {added : List BlockLine}
    (h : List.Forall₂ Says raws added) {name : String} {first : Nat} {ls : List BlockLine}
    {block : Block} (hblock : Block.Holds name first ls block) (bodies : Array Body) :
    (∃ fault, readLines ⟨bodies, some block⟩ (first + ls.length) raws = .error fault ∧
        ¬ BlockLine.PlacedOnce (ls ++ added)) ∨
      ∃ block', readLines ⟨bodies, some block⟩ (first + ls.length) raws = .ok ⟨bodies, some block'⟩ ∧
        Block.Holds name first (ls ++ added) block' := by
  induction h generalizing ls block with
  | nil =>
    rw [List.append_nil]
    exact Or.inr ⟨block, rfl, hblock⟩
  | @cons raw l raws added hl _ ih =>
    rw [readLines, hl.readLine_eq]
    rcases hblock.take_cases l with ⟨cause, htake, htwice⟩ | ⟨block', htake, hblock'⟩
    · refine Or.inl ⟨⟨first + ls.length, cause⟩, by rw [htake]; rfl, fun honce => htwice ?_⟩
      rw [← List.singleton_append, ← List.append_assoc] at honce
      exact honce.of_append
    · have hrest := ih hblock'
      rw [List.append_assoc, List.singleton_append, List.length_append, List.length_singleton,
        ← Nat.add_assoc] at hrest
      rw [htake]
      exact hrest

/-- Lines among which is no `.end` are read inside of the method that is open, so they are well
formed on their own. -/
theorem exists_says_of_readLines {raws : List (List Char)} {bodies : Array Body} {block : Block}
    {line : Nat} {progress : Progress} (hend : ∀ raw ∈ raws, lineText raw ≠ ".end".toList)
    (h : readLines ⟨bodies, some block⟩ line raws = .ok progress) :
    ∃ ls block', List.Forall₂ Says raws ls ∧ progress = ⟨bodies, some block'⟩ := by
  induction raws generalizing block line with
  | nil => exact ⟨[], block, .nil, (Except.ok.inj h).symm⟩
  | cons raw raws ih =>
    rw [readLines, bind_eq_ok_iff] at h
    obtain ⟨next, hnext, h⟩ := h
    obtain ⟨l, hl⟩ := exists_says_of_readLine (hend raw List.mem_cons_self) hnext
    rw [hl.readLine_eq] at hnext
    cases htake : block.take line l with
    | error cause => rw [htake] at hnext; cases hnext
    | ok taken =>
      rw [htake] at hnext
      obtain rfl := Except.ok.inj hnext
      obtain ⟨ls, block', hls, hprogress⟩ :=
        ih (fun raw hraw => hend raw (List.mem_cons_of_mem _ hraw)) h
      exact ⟨l :: ls, block', .cons hl hls, hprogress⟩

end PushGuard.Listing
