import PushGuard.Proofs.BlockLines
import PushGuard.Proofs.BuilderRuns

/-!
# Reading with numbered labels

The reader of listings has a builder whose labels are the names in the listing.  Here is a reader with a
builder that hands out its labels: the first time that a name is met, it gets the label that is handed
out next.  This reader passes the faults of its builder on, except that a label which marks no
instruction is reported as one at the end of the method.

Both readers do the same, line by line (`NumberedProgress.readLine_alike`).  Different names have
different labels, and a label is placed where its name is, so both builders finish alike
(`Builder.RenamedTo.finish_eq`).  A label is placed only if no line is known for its name, and then the
builder has not placed it either (`NumberedBlock.Numbers.placed`).
-/

namespace PushGuard

/-! ## Other labels -/

section Labels

variable {L L' : Type}

def Draft.map (f : L → L') : Draft L → Draft L'
  | plain code operand => plain code operand
  | branch code label => branch code (f label)
  | switch labels => switch (labels.map f)

def HandlerDraft.map (f : L → L') (h : HandlerDraft L) : HandlerDraft L' :=
  ⟨h.kind, f h.handlerStart, h.filterStart.map f⟩

def LabelFault.map (f : L → L') : LabelFault L → LabelFault L'
  | unplaced label => unplaced (f label)
  | duplicate label => duplicate (f label)

theorem Draft.map_congr {f g : L → L'} {draft : Draft L}
    (h : ∀ label ∈ draft.labels, f label = g label) : draft.map f = draft.map g := by
  cases draft with
  | plain code operand => rfl
  | branch code label => exact congrArg (branch code) (h label List.mem_cons_self)
  | switch labels => exact congrArg switch (List.map_congr_left h)

theorem HandlerDraft.map_congr {f g : L → L'} {handler : HandlerDraft L}
    (h : ∀ label ∈ handler.labels, f label = g label) : handler.map f = handler.map g := by
  have hfilter : handler.filterStart.map f = handler.filterStart.map g :=
    Option.map_congr fun label hlabel => h label (List.mem_cons_of_mem _ (by simpa using hlabel))
  rw [map, map, h _ List.mem_cons_self, hfilter]

end Labels

/-- If a step fails alike for the other element, so do the steps for all elements. -/
theorem mapM_mapError {α β γ ε ε' : Type} (f : α → Except ε γ) (g : β → Except ε' γ)
    (other : α → β) (fault : ε → ε') (xs : List α)
    (h : ∀ x ∈ xs, g (other x) = (f x).mapError fault) :
    (xs.map other).mapM g = (xs.mapM f).mapError fault := by
  induction xs with
  | nil => rfl
  | cons x xs ih =>
    have hrest := ih fun y hy => h y (List.mem_cons_of_mem _ hy)
    rw [List.map_cons, List.mapM_cons, List.mapM_cons, h x List.mem_cons_self, hrest]
    cases f x with
    | error e => rfl
    | ok y => cases xs.mapM f <;> rfl

theorem mapError_bind {α β ε ε' : Type} (x : Except ε α) (f : α → Except ε β) (fault : ε → ε') :
    (x >>= f).mapError fault = (x.mapError fault >>= fun a => (f a).mapError fault) := by
  cases x <;> rfl

namespace Builder

variable {L L' : Type} [BEq L] [BEq L'] {f : L → L'} {b : Builder L} {b' : Builder L'}

/-- The second builder holds what the first does, under other labels. -/
structure RenamedTo (f : L → L') (b : Builder L) (b' : Builder L') : Prop where
  name : b'.name = b.name
  drafts : b'.drafts.toList = b.drafts.toList.map (Draft.map f)
  handlers : b'.handlers.toList = b.handlers.toList.map (HandlerDraft.map f)
  place? : ∀ label ∈ b.labels, b'.place? (f label) = b.place? label

namespace RenamedTo

theorem size_drafts (h : RenamedTo f b b') : b'.drafts.size = b.drafts.size := by
  rw [← Array.length_toList, h.drafts, List.length_map, Array.length_toList]

theorem resolve_eq (h : RenamedTo f b b') {label : L} (hlabel : label ∈ b.labels) :
    b'.resolve (f label) = (b.resolve label).mapError (.map f) := by
  unfold resolve
  rw [h.place? label hlabel, h.size_drafts]
  cases b.place? label with
  | none => rfl
  | some id =>
    simp only
    split <;> rfl

theorem resolveDraft_eq (h : RenamedTo f b b') {draft : Draft L} (hdraft : draft ∈ b.drafts.toList) :
    b'.resolveDraft (draft.map f) = (b.resolveDraft draft).mapError (.map f) := by
  have hresolve : ∀ label ∈ draft.labels, b'.resolve (f label) =
      (b.resolve label).mapError (.map f) := fun label hlabel =>
    h.resolve_eq (List.mem_append_left _ (List.mem_flatMap.2 ⟨draft, hdraft, hlabel⟩))
  cases draft with
  | plain code operand => rfl
  | branch code label =>
    rw [Draft.map, resolveDraft, resolveDraft, hresolve label List.mem_cons_self]
    cases b.resolve label <;> rfl
  | switch labels =>
    rw [Draft.map, resolveDraft, resolveDraft,
      mapM_mapError b.resolve b'.resolve f (LabelFault.map f) labels hresolve]
    cases labels.mapM b.resolve <;> rfl

theorem resolveHandler_eq (h : RenamedTo f b b') {handler : HandlerDraft L}
    (hhandler : handler ∈ b.handlers.toList) :
    b'.resolveHandler (handler.map f) = (b.resolveHandler handler).mapError (.map f) := by
  have hresolve : ∀ label ∈ handler.labels, b'.resolve (f label) =
      (b.resolve label).mapError (.map f) := fun label hlabel =>
    h.resolve_eq (List.mem_append_right _ (List.mem_flatMap.2 ⟨handler, hhandler, hlabel⟩))
  obtain ⟨kind, handlerStart, filterStart⟩ := handler
  rw [HandlerDraft.map, resolveHandler, resolveHandler, hresolve handlerStart List.mem_cons_self]
  cases b.resolve handlerStart with
  | error fault => rfl
  | ok start =>
    cases filterStart with
    | none => rfl
    | some filter =>
      have hfilter := hresolve filter (List.mem_cons_of_mem _ List.mem_cons_self)
      simp only [Option.map_some, Option.mapM_some, hfilter]
      cases b.resolve filter <;> rfl

/-- Other labels make another fault, and no other body. -/
theorem finish_eq (h : RenamedTo f b b') : b'.finish = b.finish.mapError (.map f) := by
  unfold finish
  rw [h.name, h.drafts, h.handlers,
    mapM_mapError _ _ _ (.map f) _ fun _ => h.resolveDraft_eq,
    mapM_mapError _ _ _ (.map f) _ fun _ => h.resolveHandler_eq]
  cases b.drafts.toList.mapM b.resolveDraft with
  | error fault => rfl
  | ok instructions => cases b.handlers.toList.mapM b.resolveHandler <;> rfl

end RenamedTo

/-- A body is refused for a label that marks no instruction, and for nothing else. -/
theorem exists_unplaced_of_finish {fault : LabelFault L} (h : b.finish = .error fault) :
    ∃ label, fault = .unplaced label := by
  have hturn := b.finish_resolvesInTurn
  by_cases hall : ∀ label ∈ b.labels, ∃ k, b.resolve label = .ok k
  · obtain ⟨place, hplace⟩ := ResolvesInTurn.exists_places hall
    rw [hturn.ok place hplace] at h
    cases h
  · obtain ⟨before, label, after, hlabels, hbefore, hlabel⟩ := exists_first_not hall
    have herror := hturn.error before label after _ hlabels hbefore (b.resolve_eq_error label hlabel)
    exact ⟨label, Except.error.inj (h.symm.trans herror)⟩

end Builder

namespace Listing

open Text

/-! ## The reader -/

/-- Why a listing is refused, if the faults of the builder are passed on. -/
inductive ReadFault
  | inListing (fault : ListingFault)
  | inBuilder (fault : LabelFault Label)
  deriving DecidableEq

/-- What the statement makes the builder do, if the names have these labels. -/
def Statement.step (number : String → Label) : Statement → BuildStep
  | instruction draft => .emit (draft.map number)
  | handler h => .handler (h.map number)

/-- A method of which the end is not yet read, with a builder that hands out its labels. -/
structure NumberedBlock where
  /-- The lines of the names are kept here. -/
  block : Block
  builder : Builder Label
  labels : List (String × Label) := []

namespace NumberedBlock

def start (name : String) : NumberedBlock where
  block := { builder := { name } }
  builder := { name }

def number (b : NumberedBlock) (name : String) : Label := (b.labels.lookup name).getD 0

/-- A name that has no label gets the one that is handed out next. -/
def know (b : NumberedBlock) (name : String) : NumberedBlock :=
  match b.labels.lookup name with
  | some _ => b
  | none => { b with
      builder := (b.builder.step .fresh).2
      labels := (name, b.builder.nextLabel) :: b.labels }

def place (b : NumberedBlock) (line : Nat) (name : String) : Except ReadFault NumberedBlock :=
  match b.block.place line name with
  | .error cause => .error (.inListing ⟨line, cause⟩)
  | .ok block =>
    let known := b.know name
    match known.builder.step (.place (known.number name)) with
    | (.refused fault, _) => .error (.inBuilder fault)
    | (_, builder) => .ok { known with block, builder }

def add (b : NumberedBlock) (line : Nat) (statement : Statement) : NumberedBlock :=
  let known := statement.labels.foldl know b
  { known with
    block := b.block.add line statement
    builder := (known.builder.step (statement.step known.number)).2 }

def readText (b : NumberedBlock) (line : Nat) (text : List Char) : Except ReadFault NumberedBlock :=
  match readStatement text with
  | .ok statement => .ok (b.add line statement)
  | .error cause => .error (.inListing ⟨line, cause⟩)

def readLine (b : NumberedBlock) (line : Nat) (text : List Char) : Except ReadFault NumberedBlock :=
  match splitLabel? text with
  | none => b.readText line text
  | some (name, rest) => do
    let b ← b.place line name
    if (trim rest).isEmpty then return b else b.readText line (trim rest)

def finish (b : NumberedBlock) (line : Nat) : Except ReadFault Body :=
  match b.block.firstUnplaced? with
  | some (first, name) => .error (.inListing ⟨first, .labelNotPlaced name⟩)
  | none =>
    match b.builder.finish with
    | .ok body => .ok body
    | .error (.unplaced _) => .error (.inListing ⟨line, .labelAtEnd⟩)
    | .error fault => .error (.inBuilder fault)

end NumberedBlock

/-- What is read of a listing so far. -/
structure NumberedProgress where
  bodies : Array Body := #[]
  block : Option NumberedBlock := none

namespace NumberedProgress

def readLine (progress : NumberedProgress) (line : Nat) (raw : List Char) :
    Except ReadFault NumberedProgress :=
  let text := lineText raw
  if text.isEmpty then .ok progress
  else match directive? ".method" text, progress.block with
    | some _, some _ => .error (.inListing ⟨line, .nestedMethod⟩)
    | some name, none =>
      if name.isEmpty then .error (.inListing ⟨line, .unnamedMethod⟩)
      else .ok { progress with block := some (.start (String.ofList name)) }
    | none, some block =>
      if text = ".end".toList then do
        let body ← block.finish line
        return { bodies := progress.bodies.push body }
      else do
        let block ← block.readLine line text
        return { progress with block := some block }
    | none, none =>
      if text = ".end".toList then .error (.inListing ⟨line, .endOutside⟩)
      else .error (.inListing ⟨line, .instructionOutside⟩)

def readLines (progress : NumberedProgress) (line : Nat) :
    List (List Char) → Except ReadFault NumberedProgress
  | [] => .ok progress
  | raw :: rest => do
    let progress ← progress.readLine line raw
    progress.readLines (line + 1) rest

end NumberedProgress

/-- Reads a listing with a builder that hands out its labels. -/
def readNumbered (source : String) : Except ReadFault (List Body) := do
  let progress ← NumberedProgress.readLines {} 1 (lines source.toList)
  match progress.block with
  | some _ => .error (.inListing ⟨(lines source.toList).length, .missingEnd⟩)
  | none => return progress.bodies.toList

/-! ## Labels for names -/

theorem Block.mem_labels_add (block : Block) (line : Nat) (statement : Statement) (name : String) :
    name ∈ (block.add line statement).builder.labels ↔
      name ∈ block.builder.labels ∨ name ∈ statement.labels := by
  cases statement with
  | instruction draft =>
    have hlabels : (Statement.instruction draft).labels = draft.labels := by cases draft <;> rfl
    simp only [hlabels, Builder.labels, add, Builder.emit, Array.toList_push, List.flatMap_append,
      List.flatMap_singleton, List.mem_append]
    tauto
  | handler handler =>
    have hlabels : (Statement.handler handler).labels = handler.labels := rfl
    simp only [hlabels, Builder.labels, add, Builder.addHandler, Array.toList_push,
      List.flatMap_append, List.flatMap_singleton, List.mem_append]
    tauto

namespace NumberedBlock

variable {b : NumberedBlock}

/-- The builder holds what the block does, with different labels for the names.  What the block knows of
the places of names is what the builders know. -/
structure Numbers (b : NumberedBlock) : Prop where
  name : b.builder.name = b.block.builder.name
  drafts : b.builder.drafts.toList = b.block.builder.drafts.toList.map (Draft.map b.number)
  handlers : b.builder.handlers.toList =
    b.block.builder.handlers.toList.map (HandlerDraft.map b.number)
  known : ∀ name ∈ b.block.builder.labels, ∃ label, b.labels.lookup name = some label
  handedOut : ∀ name label, b.labels.lookup name = some label → label < b.builder.nextLabel
  distinct : ∀ name other label, b.labels.lookup name = some label →
    b.labels.lookup other = some label → name = other
  place? : ∀ name label, b.labels.lookup name = some label →
    b.builder.place? label = b.block.builder.place? name
  unknown : ∀ name, b.labels.lookup name = none → b.block.builder.place? name = none
  unused : ∀ label, b.builder.nextLabel ≤ label → b.builder.place? label = none
  placedOn : ∀ name, b.block.placedOn.lookup name = none ↔ b.block.builder.place? name = none

theorem number_eq {name : String} {label : Label} (h : b.labels.lookup name = some label) :
    b.number name = label := by
  rw [number, h, Option.getD_some]

theorem know_block (b : NumberedBlock) (name : String) : (b.know name).block = b.block := by
  unfold know
  split <;> rfl

/-- A name keeps the label that it has. -/
theorem lookup_know {other : String} {label : Label} (h : b.labels.lookup other = some label)
    (name : String) : (b.know name).labels.lookup other = some label := by
  unfold know
  split
  · exact h
  · next hnone =>
    have hne : ¬ some name = some other := by
      rintro ⟨⟩
      rw [hnone] at h
      cases h
    exact (Block.lookup_cons_eq_ite name other b.builder.nextLabel b.labels).trans
      ((if_neg hne).trans h)

theorem exists_lookup_know (b : NumberedBlock) (name : String) :
    ∃ label, (b.know name).labels.lookup name = some label := by
  unfold know
  split
  · next label hlabel => exact ⟨label, hlabel⟩
  · exact ⟨b.builder.nextLabel, List.lookup_cons_self⟩

namespace Numbers

theorem start (name : String) : (NumberedBlock.start name).Numbers where
  name := rfl
  drafts := rfl
  handlers := rfl
  known := by rintro _ ⟨⟩
  handedOut := by rintro _ _ ⟨⟩
  distinct := by rintro _ _ _ ⟨⟩
  place? := by rintro _ _ ⟨⟩
  unknown _ _ := rfl
  unused _ _ := rfl
  placedOn _ := Iff.rfl

/-- Labels for more names change nothing in what is there. -/
theorem map_number_eq (h : b.Numbers) {number : String → Label}
    (hnumber : ∀ name label, b.labels.lookup name = some label → number name = label) :
    b.builder.drafts.toList = b.block.builder.drafts.toList.map (Draft.map number) ∧
      b.builder.handlers.toList =
        b.block.builder.handlers.toList.map (HandlerDraft.map number) := by
  have hsame : ∀ name ∈ b.block.builder.labels, b.number name = number name := by
    intro name hname
    obtain ⟨label, hlabel⟩ := h.known name hname
    rw [number_eq hlabel, hnumber name label hlabel]
  rw [h.drafts, h.handlers]
  constructor
  · apply List.map_congr_left
    intro draft hdraft
    apply Draft.map_congr
    intro name hname
    exact hsame name (List.mem_append_left _ (List.mem_flatMap.2 ⟨draft, hdraft, hname⟩))
  · apply List.map_congr_left
    intro handler hhandler
    apply HandlerDraft.map_congr
    intro name hname
    exact hsame name (List.mem_append_right _ (List.mem_flatMap.2 ⟨handler, hhandler, hname⟩))

theorem know (h : b.Numbers) (name : String) : (b.know name).Numbers := by
  have hkept : ∀ other label, b.labels.lookup other = some label →
      (b.know name).number other = label :=
    fun other label hother => number_eq (lookup_know hother name)
  obtain ⟨hdrafts, hhandlers⟩ := h.map_number_eq hkept
  have hknown : ∀ other ∈ b.block.builder.labels,
      ∃ label, (b.know name).labels.lookup other = some label := by
    intro other hother
    obtain ⟨label, hlabel⟩ := h.known other hother
    exact ⟨label, lookup_know hlabel name⟩
  unfold NumberedBlock.know at hdrafts hhandlers hknown ⊢
  cases hname : b.labels.lookup name with
  | some label => exact h
  | none =>
    simp only [hname] at hdrafts hhandlers hknown ⊢
    -- the new label was not used for another name
    have hlookup := fun other =>
      Block.lookup_cons_eq_ite name other b.builder.nextLabel b.labels
    refine ⟨h.name, hdrafts, hhandlers, hknown, ?_, ?_, ?_, ?_, ?_, h.placedOn⟩
    · intro other label hother
      rw [hlookup] at hother
      split at hother
      · obtain rfl := Option.some.inj hother
        exact Nat.lt_succ_self b.builder.nextLabel
      · exact Nat.lt_succ_of_lt (h.handedOut other label hother)
    · intro other other' label hother hother'
      rw [hlookup] at hother hother'
      split at hother
      · next heq =>
        split at hother'
        · next heq' => exact Option.some.inj (heq.symm.trans heq')
        · obtain rfl := Option.some.inj hother
          exact absurd (h.handedOut other' _ hother') (Nat.lt_irrefl _)
      · split at hother'
        · obtain rfl := Option.some.inj hother'
          exact absurd (h.handedOut other _ hother) (Nat.lt_irrefl _)
        · exact h.distinct other other' label hother hother'
    · intro other label hother
      rw [hlookup] at hother
      split at hother
      · next heq =>
        obtain rfl := Option.some.inj heq
        obtain rfl := Option.some.inj hother
        exact (h.unused _ (Nat.le_refl _)).trans (h.unknown name hname).symm
      · exact h.place? other label hother
    · intro other hother
      rw [hlookup] at hother
      split at hother
      · cases hother
      · exact h.unknown other hother
    · intro label hlabel
      exact h.unused label (Nat.le_of_succ_le hlabel)

theorem knowAll (h : b.Numbers) (names : List String) :
    (names.foldl NumberedBlock.know b).Numbers ∧
      (names.foldl NumberedBlock.know b).block = b.block ∧
      (∀ name label, b.labels.lookup name = some label →
        (names.foldl NumberedBlock.know b).labels.lookup name = some label) ∧
      ∀ name ∈ names, ∃ label,
        (names.foldl NumberedBlock.know b).labels.lookup name = some label := by
  induction names generalizing b with
  | nil => exact ⟨h, rfl, fun _ _ hname => hname, nofun⟩
  | cons first names ih =>
    obtain ⟨hnumbers, hblock, hkept, hknown⟩ := ih (h.know first)
    refine ⟨hnumbers, hblock.trans (b.know_block first), ?_, ?_⟩
    · intro name label hname
      exact hkept name label (lookup_know hname first)
    · intro name hname
      rcases List.mem_cons.1 hname with rfl | hname
      · obtain ⟨label, hlabel⟩ := b.exists_lookup_know name
        exact ⟨label, hkept name label hlabel⟩
      · exact hknown name hname

theorem renamedTo (h : b.Numbers) : b.block.builder.RenamedTo b.number b.builder where
  name := h.name
  drafts := h.drafts
  handlers := h.handlers
  place? := by
    intro name hname
    obtain ⟨label, hlabel⟩ := h.known name hname
    rw [number_eq hlabel, h.place? name label hlabel]

/-- A name that is not yet placed is placed by both builders, and this is not refused. -/
theorem placed (h : b.Numbers) {name : String} {label : Label}
    (hlabel : b.labels.lookup name = some label) (hfresh : b.block.placedOn.lookup name = none)
    (line : Nat) :
    (b.builder.step (.place label)).1 = .placed ∧
      Numbers { b with
        block := { b.block with
          builder := b.block.builder.place name
          placedOn := (name, line) :: b.block.placedOn }
        builder := (b.builder.step (.place label)).2 } := by
  have hplace : b.builder.place? label = none :=
    (h.place? name label hlabel).trans ((h.placedOn name).1 hfresh)
  constructor
  · show (if (b.builder.place? label).isSome then _ else _) = _
    rw [hplace]
    rfl
  · have hnamed := fun other =>
      Block.lookup_cons_eq_ite name other b.block.builder.drafts.size b.block.builder.placed
    have hline := fun other => Block.lookup_cons_eq_ite name other line b.block.placedOn
    refine ⟨h.name, h.drafts, h.handlers, h.known, h.handedOut, h.distinct, ?_, ?_, ?_, ?_⟩
    · intro other label' hother
      show (b.builder.step (.place label)).2.place? label' = _
      refine Eq.trans ?_ (hnamed other).symm
      by_cases heq : name = other
      · subst heq
        obtain rfl := Option.some.inj (hlabel.symm.trans hother)
        rw [if_pos rfl, Builder.place?_step_place, h.renamedTo.size_drafts]
      · have hne : BuildStep.place label ≠ .place label' := by
          rintro ⟨⟩
          exact heq (h.distinct name other label hlabel hother)
        rw [if_neg fun hsome => heq (Option.some.inj hsome), Builder.place?_step_of_ne _ _ _ hne]
        exact h.place? other label' hother
    · intro other hother
      refine (hnamed other).trans ?_
      rw [if_neg]
      · exact h.unknown other hother
      · rintro ⟨⟩
        rw [hlabel] at hother
        cases hother
    · intro label' hlabel'
      have hne : BuildStep.place label ≠ .place label' := by
        rintro ⟨⟩
        exact absurd (h.handedOut name label hlabel) (Nat.not_lt.2 hlabel')
      exact (Builder.place?_step_of_ne _ _ _ hne).trans (h.unused label' hlabel')
    · intro other
      show List.lookup other ((name, line) :: _) = none ↔ List.lookup other ((name, _) :: _) = none
      rw [hline, hnamed]
      split
      · exact iff_of_false nofun nofun
      · exact h.placedOn other

/-- What is added names only labels that are known. -/
theorem added (h : b.Numbers) {statement : Statement}
    (hknown : ∀ name ∈ statement.labels, ∃ label, b.labels.lookup name = some label) (line : Nat) :
    Numbers { b with
      block := b.block.add line statement
      builder := (b.builder.step (statement.step b.number)).2 } := by
  have hknown' : ∀ name ∈ (b.block.add line statement).builder.labels,
      ∃ label, b.labels.lookup name = some label := by
    intro name hname
    rcases (b.block.mem_labels_add line statement name).1 hname with hname | hname
    · exact h.known name hname
    · exact hknown name hname
  cases statement with
  | instruction draft =>
    have hdrafts : (b.builder.drafts.push (draft.map b.number)).toList =
        (b.block.builder.drafts.push draft).toList.map (Draft.map b.number) := by
      rw [Array.toList_push, Array.toList_push, List.map_append, h.drafts]
      rfl
    exact ⟨h.name, hdrafts, h.handlers, hknown', h.handedOut, h.distinct, h.place?, h.unknown,
      h.unused, h.placedOn⟩
  | handler handler =>
    have hhandlers : (b.builder.handlers.push (handler.map b.number)).toList =
        (b.block.builder.handlers.push handler).toList.map (HandlerDraft.map b.number) := by
      rw [Array.toList_push, Array.toList_push, List.map_append, h.handlers]
      rfl
    exact ⟨h.name, h.drafts, hhandlers, hknown', h.handedOut, h.distinct, h.place?, h.unknown,
      h.unused, h.placedOn⟩

theorem finish_eq (h : b.Numbers) (line : Nat) :
    b.finish line = (b.block.finish line).mapError .inListing := by
  unfold NumberedBlock.finish Block.finish
  cases b.block.firstUnplaced? with
  | some named => rfl
  | none =>
    simp only [h.renamedTo.finish_eq]
    cases hfinish : b.block.builder.finish with
    | ok body => rfl
    | error fault =>
      obtain ⟨label, rfl⟩ := Builder.exists_unplaced_of_finish hfinish
      rfl

end Numbers

end NumberedBlock

/-! ## Both readers -/

/-- Both computations succeed with related results, or both refuse the listing for the same fault. -/
inductive ReadsAlike {α β : Type} (R : α → β → Prop) :
    Except ListingFault α → Except ReadFault β → Prop
  | ok {a : α} {b : β} : R a b → ReadsAlike R (.ok a) (.ok b)
  | error (fault : ListingFault) : ReadsAlike R (.error fault) (.error (.inListing fault))

theorem ReadsAlike.bind {α β γ δ : Type} {R : α → β → Prop} {S : γ → δ → Prop}
    {x : Except ListingFault α} {y : Except ReadFault β} {f : α → Except ListingFault γ}
    {g : β → Except ReadFault δ} (h : ReadsAlike R x y)
    (hfg : ∀ a b, R a b → ReadsAlike S (f a) (g b)) : ReadsAlike S (x >>= f) (y >>= g) := by
  cases h with
  | ok hab => exact hfg _ _ hab
  | error fault => exact .error fault

theorem ReadsAlike.eq_mapError {α : Type} {x : Except ListingFault α} {y : Except ReadFault α}
    (h : ReadsAlike Eq x y) : y = x.mapError .inListing := by
  cases h with
  | ok hab => rw [hab]; rfl
  | error fault => rfl

namespace NumberedBlock

variable {b : NumberedBlock}

/-- The numbered block is made of this one. -/
structure NumbersOf (block : Block) (b : NumberedBlock) : Prop where
  block_eq : b.block = block
  numbers : b.Numbers

theorem Numbers.place_alike (h : b.Numbers) (line : Nat) (name : String) :
    ReadsAlike NumbersOf ((b.block.place line name).mapError (.mk line)) (b.place line name) := by
  unfold NumberedBlock.place Block.place
  cases hlookup : b.block.placedOn.lookup name with
  | some earlier => exact .error _
  | none =>
    obtain ⟨label, hlabel⟩ := b.exists_lookup_know name
    have hfresh : (b.know name).block.placedOn.lookup name = none := by rw [know_block, hlookup]
    obtain ⟨hreply, hnumbers⟩ := (h.know name).placed hlabel hfresh line
    have hstep : (b.know name).builder.step (.place label) =
        (.placed, ((b.know name).builder.step (.place label)).2) := Prod.ext hreply rfl
    rw [know_block] at hnumbers
    simp only [number_eq hlabel]
    rw [hstep]
    exact .ok ⟨rfl, hnumbers⟩

theorem Numbers.readText_alike (h : b.Numbers) (line : Nat) (text : List Char) :
    ReadsAlike NumbersOf
      ((readStatement text >>= fun statement => .ok (b.block.add line statement)).mapError (.mk line))
      (b.readText line text) := by
  unfold NumberedBlock.readText
  cases readStatement text with
  | error cause => exact .error _
  | ok statement =>
    obtain ⟨hnumbers, hblock, -, hknown⟩ := h.knowAll statement.labels
    have hadded := hnumbers.added hknown line
    rw [hblock] at hadded
    exact .ok ⟨rfl, hadded⟩

theorem Numbers.readLine_alike (h : b.Numbers) (line : Nat) (text : List Char) :
    ReadsAlike NumbersOf ((b.block.readLine line text).mapError (.mk line))
      (b.readLine line text) := by
  unfold NumberedBlock.readLine Block.readLine
  cases splitLabel? text with
  | none => exact h.readText_alike line text
  | some split =>
    obtain ⟨name, rest⟩ := split
    simp only
    rw [mapError_bind]
    refine (h.place_alike line name).bind ?_
    rintro _ placed ⟨rfl, hplaced⟩
    split
    · exact .ok ⟨rfl, hplaced⟩
    · exact hplaced.readText_alike line (trim rest)

end NumberedBlock

namespace NumberedProgress

/-- Both readers have the same bodies, and the same method is open. -/
structure Alike (p : Progress) (p' : NumberedProgress) : Prop where
  bodies : p'.bodies = p.bodies
  block : Option.Rel NumberedBlock.NumbersOf p.block p'.block

theorem readLine_alike {p : Progress} {p' : NumberedProgress} (h : Alike p p') (line : Nat)
    (raw : List Char) : ReadsAlike Alike (Listing.readLine p line raw) (p'.readLine line raw) := by
  obtain ⟨bodies, block⟩ := p
  obtain ⟨bodies', block'⟩ := p'
  obtain rfl : bodies = bodies' := h.bodies.symm
  have hblock : Option.Rel NumberedBlock.NumbersOf block block' := h.block
  unfold Listing.readLine NumberedProgress.readLine lineText
  simp only
  split
  · exact .ok ⟨rfl, hblock⟩
  cases directive? ".method" (trim (stripComment .outside raw)) with
  | some name =>
    cases hblock with
    | some _ => exact .error _
    | none =>
      simp only
      split
      · exact .error _
      · exact .ok ⟨rfl, .some ⟨rfl, .start _⟩⟩
  | none =>
    cases hblock with
    | none =>
      simp only
      split <;> exact .error _
    | @some _ b hb =>
      obtain ⟨rfl, hnumbers⟩ := hb
      simp only
      split
      · rw [hnumbers.finish_eq]
        cases b.block.finish line with
        | error fault => exact .error fault
        | ok body => exact .ok ⟨rfl, .none⟩
      · have hline := hnumbers.readLine_alike line (trim (stripComment .outside raw))
        have hopen : ReadsAlike Alike
            ((b.block.readLine line (trim (stripComment .outside raw))).mapError (.mk line) >>=
              fun block => .ok ⟨bodies, some block⟩)
            (b.readLine line (trim (stripComment .outside raw)) >>= fun b => .ok ⟨bodies, some b⟩) :=
          hline.bind fun _ _ hb => .ok ⟨rfl, .some hb⟩
        revert hopen
        cases b.block.readLine line (trim (stripComment .outside raw)) with
        | error cause => exact id
        | ok block => exact id

theorem readLines_alike {p : Progress} {p' : NumberedProgress} (h : Alike p p') (line : Nat)
    (raws : List (List Char)) :
    ReadsAlike Alike (Listing.readLines p line raws) (p'.readLines line raws) := by
  induction raws generalizing p p' line with
  | nil => exact .ok h
  | cons raw raws ih =>
    exact (readLine_alike h line raw).bind fun next next' hnext => ih hnext (line + 1)

theorem start_alike (raws : List (List Char)) :
    ReadsAlike Alike (Listing.readLines {} 1 raws) (readLines {} 1 raws) :=
  readLines_alike ⟨rfl, .none⟩ 1 raws

end NumberedProgress

/-- The builder's faults are never passed on. -/
theorem readNumbered_eq_mapError (source : String) :
    readNumbered source = (read source).mapError .inListing := by
  apply ReadsAlike.eq_mapError
  refine (NumberedProgress.start_alike (lines source.toList)).bind ?_
  rintro ⟨bodies, block⟩ ⟨_, block'⟩ ⟨rfl, hblock⟩
  cases hblock with
  | some _ => exact .error _
  | none => exact .ok rfl

/-- In a method that is open, the names whose lines are known are those that the builder has placed. -/
theorem placedOn_eq_none_iff {raws : List (List Char)} {bodies : Array Body} {block : Block}
    (h : readLines {} 1 raws = .ok ⟨bodies, some block⟩) (name : String) :
    block.placedOn.lookup name = none ↔ block.builder.place? name = none := by
  have hstart := NumberedProgress.start_alike raws
  rw [h] at hstart
  generalize NumberedProgress.readLines {} 1 raws = read at hstart
  cases hstart with
  | @ok _ p' halike =>
    have hblock := halike.block
    generalize p'.block = block' at hblock
    cases hblock with
    | some hb =>
      obtain ⟨rfl, hnumbers⟩ := hb
      exact hnumbers.placedOn name

end Listing

end PushGuard
