import Mathlib.Order.Bounds.Basic
import PushGuard.Proofs.BlockLines

/-!
# The labels of a listing

A method stands between the line that opens it and the first `.end` behind that.  In a listing that
can be read, each method gives one body: its instructions are those of its lines, in order, and a
label stands for the number of the instructions above its place.  Conversely, a method whose lines
are well formed on their own is refused only for its labels: one is placed twice, or is named and
never placed, or is named and placed behind the last instruction (`read_resolves_labels`).
-/

namespace PushGuard.Listing

open Text

/-- The body of a method with these lines.  Every label is placed on one line; where it is named, it
is the number of the instructions above that line, and there is an instruction of this number. -/
structure BlockLine.Resolves (name : String) (ls : List BlockLine) (body : Body) : Prop where
  exactlyOnce : ∀ label, ((∃ j, Places ls j label) ∨ ∃ j, Names ls j label) →
    ∃! j, Places ls j label
  resolved : ∃ place : String → Nat,
    (∀ label j, (∃ j', Names ls j' label) → Places ls j label →
      place label = above ls j ∧ place label < body.size) ∧
    body = Body.ofInstructions name ((drafts ls).map fun draft => draft.resolved place)
      ((handlers ls).map fun handler => handler.resolved place)

theorem Block.Holds.resolves {name : String} {first last : Nat} {ls : List BlockLine} {block : Block}
    {body : Body} (h : Holds name first ls block) (hfinish : block.finish last = .ok body) :
    BlockLine.Resolves name ls body := by
  have hplaced : ∀ label, ¬ BlockLine.NeverPlaced ls label := by
    intro label hnever
    obtain ⟨j, other, herror, -⟩ := h.finish_of_neverPlaced last ⟨label, hnever⟩
    rw [hfinish] at herror
    cases herror
  have hend : ∀ label, ¬ BlockLine.PlacedAtEnd ls label := by
    intro label hatEnd
    have herror := h.finish_of_placedAtEnd last hplaced ⟨label, hatEnd⟩
    rw [hfinish] at herror
    cases herror
  obtain ⟨place, hplace, hok⟩ := h.finish_eq_ok last hplaced hend
  obtain rfl := Except.ok.inj (hfinish.symm.trans hok)
  refine ⟨?_, place, ?_, rfl⟩
  · intro label hlabel
    have hex : ∃ j, BlockLine.Places ls j label := by
      rcases hlabel with hplaces | hnames
      · exact hplaces
      · by_contra hnone
        exact hplaced label ⟨hnames, not_exists.1 hnone⟩
    obtain ⟨j, hj⟩ := hex
    exact ⟨j, hj, fun j' hj' => h.once label j' j hj' hj⟩
  · intro label j hnames hj
    let instructions := (BlockLine.drafts ls).map fun draft => draft.resolved place
    have hsize : (layout 0 instructions).length = (BlockLine.drafts ls).length := by
      rw [(forall₂_layout 0 instructions).length_eq, List.length_map]
    obtain ⟨heq, hlt⟩ := hplace label j hnames hj
    refine ⟨heq, ?_⟩
    show place label < (layout 0 instructions).length
    omega

/-! ## One method -/

theorem readLine_of_method {raw name : List Char}
    (hopen : directive? ".method" (lineText raw) = some name) (hname : name ≠ []) (bodies : Array Body) (line : Nat) :
    readLine ⟨bodies, none⟩ line raw =
      .ok ⟨bodies, some { builder := { name := String.ofList name } }⟩ := by
  have hne : (lineText raw).isEmpty = false := by
    cases htext : lineText raw with
    | nil => rw [htext] at hopen; cases hopen
    | cons c rest => rfl
  have hname' : name.isEmpty = false := by simpa using hname
  unfold lineText at hopen hne
  unfold readLine
  simp only [hne, hopen, hname', Bool.false_eq_true, if_false]

theorem readLine_of_end {raw : List Char} (hend : lineText raw = ".end".toList) (bodies : Array Body)
    (block : Block) (line : Nat) :
    readLine ⟨bodies, some block⟩ line raw =
      (block.finish line >>= fun body => .ok ⟨bodies.push body, none⟩) := by
  unfold lineText at hend
  have hmethod : directive? ".method" ".end".toList = none := by decide
  unfold readLine
  simp only [hend, hmethod, if_true]
  rfl

/-- The lines of a method: the one that opens it, lines that are well formed on their own, and the
one that ends it. -/
inductive IsMethod (name : List Char) (ls : List BlockLine) : List (List Char) → Prop
  | intro (opening : List Char) (inner : List (List Char)) (ending : List Char) :
    directive? ".method" (lineText opening) = some name → name ≠ [] →
    List.Forall₂ Says inner ls → lineText ending = ".end".toList →
    IsMethod name ls (opening :: (inner ++ [ending]))

/-- A method is taken in up to its end, unless a label is placed twice. -/
theorem IsMethod.readLines_cases {name : List Char} {ls : List BlockLine}
    {method : List (List Char)} (h : IsMethod name ls method) (bodies : Array Body) (line : Nat) :
    (∃ fault, readLines ⟨bodies, none⟩ line method = .error fault ∧ ¬ BlockLine.PlacedOnce ls) ∨
      ∃ block, Block.Holds (String.ofList name) (line + 1) ls block ∧
        ∃ last, readLines ⟨bodies, none⟩ line method =
          (block.finish last >>= fun body => .ok ⟨bodies.push body, none⟩) := by
  obtain ⟨opening, inner, ending, hopen, hname, hinner, hend⟩ := h
  have hstart := Block.Holds.start (String.ofList name) (line + 1)
  have hopened : readLines ⟨bodies, none⟩ line (opening :: (inner ++ [ending])) =
      (readLines ⟨bodies, some { builder := { name := String.ofList name } }⟩ (line + 1) inner >>=
        fun progress => readLines progress (line + 1 + inner.length) [ending]) := by
    rw [readLines, readLine_of_method hopen hname]
    exact readLines_append _ _ _ _
  rw [hopened]
  rcases readLines_inside_cases hinner hstart bodies with
    ⟨fault, hfault, htwice⟩ | ⟨block, hblock, hholds⟩
  · have hfault' : readLines ⟨bodies, some { builder := { name := String.ofList name } }⟩ (line + 1)
        inner = .error fault := hfault
    exact Or.inl ⟨fault, by rw [hfault']; rfl, htwice⟩
  · have hblock' : readLines ⟨bodies, some { builder := { name := String.ofList name } }⟩ (line + 1)
        inner = .ok ⟨bodies, some block⟩ := hblock
    refine Or.inr ⟨block, hholds, line + 1 + inner.length, ?_⟩
    rw [hblock']
    show (readLine ⟨bodies, some block⟩ (line + 1 + inner.length) ending >>= _) = _
    rw [readLine_of_end hend]
    cases block.finish (line + 1 + inner.length) with
    | error fault => rfl
    | ok body => rfl

/-- A method that is read gives one body more, in which its labels are resolved. -/
theorem IsMethod.resolves {name : List Char} {ls : List BlockLine} {method : List (List Char)}
    (h : IsMethod name ls method) {bodies : Array Body} {line : Nat} {progress : Progress}
    (hread : readLines ⟨bodies, none⟩ line method = .ok progress) :
    ∃ body, progress = ⟨bodies.push body, none⟩ ∧
      BlockLine.Resolves (String.ofList name) ls body := by
  rcases h.readLines_cases bodies line with ⟨fault, hfault, -⟩ | ⟨block, hholds, last, hblock⟩
  · rw [hread] at hfault
    cases hfault
  · rw [hread] at hblock
    obtain ⟨body, hbody, hprogress⟩ := (bind_eq_ok_iff _ _ _).1 hblock.symm
    exact ⟨body, (Except.ok.inj hprogress).symm, hholds.resolves hbody⟩

/-- A method that is well formed line by line is refused for its labels, and for nothing else. -/
theorem IsMethod.exists_error_iff {name : List Char} {ls : List BlockLine}
    {method : List (List Char)} (h : IsMethod name ls method) (bodies : Array Body) (line : Nat) :
    (∃ fault, readLines ⟨bodies, none⟩ line method = .error fault) ↔
      ¬ BlockLine.PlacedOnce ls ∨ (∃ label, BlockLine.NeverPlaced ls label) ∨
        ∃ label, BlockLine.PlacedAtEnd ls label := by
  rcases h.readLines_cases bodies line with ⟨fault, hfault, htwice⟩ | ⟨block, hholds, last, hblock⟩
  · exact iff_of_true ⟨fault, hfault⟩ (Or.inl htwice)
  · rw [hblock]
    by_cases hnever : ∃ label, BlockLine.NeverPlaced ls label
    · obtain ⟨j, label, hfinish, -⟩ := hholds.finish_of_neverPlaced last hnever
      rw [hfinish]
      exact iff_of_true ⟨_, rfl⟩ (Or.inr (Or.inl hnever))
    · by_cases hatEnd : ∃ label, BlockLine.PlacedAtEnd ls label
      · rw [hholds.finish_of_placedAtEnd last (not_exists.1 hnever) hatEnd]
        exact iff_of_true ⟨_, rfl⟩ (Or.inr (Or.inr hatEnd))
      · obtain ⟨place, -, hfinish⟩ :=
          hholds.finish_eq_ok last (not_exists.1 hnever) (not_exists.1 hatEnd)
        rw [hfinish]
        refine iff_of_false ?_ ?_
        · rintro ⟨fault, hfault⟩
          cases hfault
        · rintro (htwice | hor)
          · exact htwice hholds.once
          · exact hor.elim hnever hatEnd

theorem IsMethod.error_of_neverPlaced {name : List Char} {ls : List BlockLine}
    {method : List (List Char)} (h : IsMethod name ls method) (bodies : Array Body) (line : Nat)
    (honce : BlockLine.PlacedOnce ls) (hnever : ∃ label, BlockLine.NeverPlaced ls label) :
    ∃ j label, readLines ⟨bodies, none⟩ line method =
        .error ⟨line + 1 + j, .labelNotPlaced label⟩ ∧
      BlockLine.Names ls j label ∧ BlockLine.NeverPlaced ls label ∧
      ∀ j' other, BlockLine.Names ls j' other → BlockLine.NeverPlaced ls other → j ≤ j' := by
  rcases h.readLines_cases bodies line with ⟨fault, -, htwice⟩ | ⟨block, hholds, last, hblock⟩
  · exact absurd honce htwice
  · obtain ⟨j, label, hfinish, hlabel⟩ := hholds.finish_of_neverPlaced last hnever
    exact ⟨j, label, by rw [hblock, hfinish]; rfl, hlabel⟩

/-! ## All methods -/

/-- The lines in front of the first `.end`. -/
def upToEnd (rest : List (List Char)) : List (List Char) :=
  rest.takeWhile fun raw => lineText raw != ".end".toList

/-- The methods of a listing: the name behind each `.method`, and the lines from there to `.end`. -/
def methodBlocks : List (List Char) → List (List Char × List (List Char))
  | [] => []
  | raw :: rest =>
    match directive? ".method" (lineText raw) with
    | some name => (name, upToEnd rest) :: methodBlocks rest
    | none => methodBlocks rest

/-- The body is the one of a method with this name and these lines. -/
def Gives (block : List Char × List (List Char)) (body : Body) : Prop :=
  ∃ ls, List.Forall₂ Says block.2 ls ∧ BlockLine.Resolves (String.ofList block.1) ls body

/-- No method is opened before the one that is open has ended. -/
theorem methodBlocks_append {inner : List (List Char)} {ls : List BlockLine}
    (h : List.Forall₂ Says inner ls) {ending : List Char} (hend : lineText ending = ".end".toList)
    (after : List (List Char)) : methodBlocks (inner ++ ending :: after) = methodBlocks after := by
  induction h with
  | nil =>
    have hmethod : directive? ".method" ".end".toList = none := by decide
    rw [List.nil_append, methodBlocks, hend, hmethod]
  | cons hl _ ih => rw [List.cons_append, methodBlocks, hl.noMethod, ih]

/-- Outside of methods there are blank lines and lines that open one. -/
theorem readLine_outside_cases {bodies : Array Body} {line : Nat} {raw : List Char}
    {progress : Progress} (h : readLine ⟨bodies, none⟩ line raw = .ok progress) :
    (directive? ".method" (lineText raw) = none ∧ progress = ⟨bodies, none⟩) ∨
      ∃ name, directive? ".method" (lineText raw) = some name ∧ name ≠ [] := by
  unfold readLine at h
  cases hempty : (trim (stripComment .outside raw)).isEmpty with
  | true =>
    have hblank : lineText raw = [] := List.isEmpty_iff.1 hempty
    simp only [hempty, if_true] at h
    exact Or.inl ⟨by rw [hblank]; rfl, (Except.ok.inj h).symm⟩
  | false =>
    simp only [hempty, Bool.false_eq_true, if_false] at h
    cases hmethod : directive? ".method" (trim (stripComment .outside raw)) with
    | none =>
      simp only [hmethod] at h
      split at h <;> cases h
    | some name =>
      simp only [hmethod] at h
      refine Or.inr ⟨name, hmethod, fun hname => ?_⟩
      simp only [hname, List.isEmpty_nil, if_true] at h
      cases h

/-- If nothing is open behind the lines, an open method ends at the first `.end` among them. -/
theorem exists_end_of_readLines {rest : List (List Char)} {bodies : Array Body} {block : Block}
    {line : Nat} {progress : Progress} (h : readLines ⟨bodies, some block⟩ line rest = .ok progress)
    (hclosed : progress.block = none) :
    ∃ ls ending after, rest = upToEnd rest ++ ending :: after ∧
      List.Forall₂ Says (upToEnd rest) ls ∧ lineText ending = ".end".toList := by
  have hnoEnd : ∀ raw ∈ upToEnd rest, lineText raw ≠ ".end".toList := by
    intro raw hraw
    simpa using List.all_eq_true.1 List.all_takeWhile raw hraw
  have hrest : upToEnd rest ++ rest.dropWhile (fun raw => lineText raw != ".end".toList) = rest :=
    List.takeWhile_append_dropWhile
  rw [← hrest, readLines_append, bind_eq_ok_iff] at h
  obtain ⟨inside, hinside, hbehind⟩ := h
  obtain ⟨ls, block', hinner, rfl⟩ := exists_says_of_readLines hnoEnd hinside
  cases hafter : rest.dropWhile fun raw => lineText raw != ".end".toList with
  | nil =>
    -- the method would stay open
    rw [hafter] at hbehind
    obtain rfl := Except.ok.inj hbehind
    cases hclosed
  | cons ending after =>
    have hending := List.head?_dropWhile_not (fun raw => lineText raw != ".end".toList) rest
    rw [hafter] at hrest hending
    exact ⟨ls, ending, after, hrest.symm, hinner, by simpa using hending⟩

/-- In lines that are read to the end of the last method, every method gives a body. -/
theorem resolves_of_readLines (raws : List (List Char)) {bodies : Array Body} {line : Nat}
    {progress : Progress} (h : readLines ⟨bodies, none⟩ line raws = .ok progress)
    (hclosed : progress.block = none) :
    ∃ added, progress.bodies.toList = bodies.toList ++ added ∧
      List.Forall₂ Gives (methodBlocks raws) added := by
  match raws with
  | [] =>
    obtain rfl := Except.ok.inj h
    exact ⟨[], (List.append_nil _).symm, .nil⟩
  | raw :: rest =>
    obtain ⟨next, hnext, hopened⟩ := (bind_eq_ok_iff _ _ _).1 h
    rw [methodBlocks]
    rcases readLine_outside_cases hnext with ⟨hnone, rfl⟩ | ⟨name, hopen, hname⟩
    · rw [hnone]
      exact resolves_of_readLines rest hopened hclosed
    · -- the lines up to the end of the method are read at once, and the others by induction
      obtain rfl := Except.ok.inj (hnext.symm.trans (readLine_of_method hopen hname bodies line))
      obtain ⟨ls, ending, after, hrest, hinner, hending⟩ := exists_end_of_readLines hopened hclosed
      have hmethod := IsMethod.intro raw (upToEnd rest) ending hopen hname hinner hending
      have hlength : after.length < rest.length := by
        rw [hrest, List.length_append, List.length_cons]
        omega
      have hmethods : methodBlocks rest = methodBlocks after := by
        rw [hrest]
        exact methodBlocks_append hinner hending after
      have hlines : raw :: rest = raw :: (upToEnd rest ++ [ending]) ++ after := by
        rw [List.cons_append, List.append_assoc, List.singleton_append, ← hrest]
      rw [hlines, readLines_append, bind_eq_ok_iff] at h
      obtain ⟨behind, hbehind, hafter⟩ := h
      obtain ⟨body, rfl, hbody⟩ := hmethod.resolves hbehind
      obtain ⟨added, hadded, hblocks⟩ := resolves_of_readLines after hafter hclosed
      rw [hopen, hmethods]
      refine ⟨body :: added, ?_, .cons ⟨ls, hinner, hbody⟩ hblocks⟩
      rw [hadded]
      simp
termination_by raws.length
decreasing_by
  · simp
  · simp only [List.length_cons]
    omega

/-! ## A method behind other methods -/

/-- Nothing is open behind a listing that can be read. -/
theorem exists_readLines_of_ofLines {before : List (List Char)} {bodies : List Body}
    (h : ofLines before = .ok bodies) : ∃ read, readLines {} 1 before = .ok ⟨read, none⟩ := by
  rw [ofLines, bind_eq_ok_iff] at h
  obtain ⟨⟨read, block⟩, hread, h⟩ := h
  cases block with
  | some block => cases h
  | none => exact ⟨read, hread⟩

/-- A fault stands, whatever follows. -/
theorem ofLines_append_of_error {raws : List (List Char)} {fault : ListingFault}
    (h : readLines {} 1 raws = .error fault) (after : List (List Char)) :
    ofLines (raws ++ after) = .error fault := by
  rw [ofLines, readLines_append, h]
  rfl

/-- Up to the end of a method, the method itself is to blame for a fault. -/
theorem IsMethod.ofLines_eq_error_iff {name : List Char} {ls : List BlockLine}
    {before method : List (List Char)} (h : IsMethod name ls method) {bodies : Array Body}
    (hbefore : readLines {} 1 before = .ok ⟨bodies, none⟩) (fault : ListingFault) :
    ofLines (before ++ method) = .error fault ↔
      readLines ⟨bodies, none⟩ (1 + before.length) method = .error fault := by
  rw [ofLines, readLines_append, hbefore]
  show (readLines ⟨bodies, none⟩ (1 + before.length) method >>= _) = _ ↔ _
  cases hread : readLines ⟨bodies, none⟩ (1 + before.length) method with
  | error fault' =>
    show (Except.error fault' : Except ListingFault (List Body)) = _ ↔ _
    simp only [Except.error.injEq]
  | ok progress =>
    obtain ⟨body, rfl, -⟩ := h.resolves hread
    refine iff_of_false ?_ ?_
    · intro herror
      cases herror
    · intro herror
      cases herror

/-- **Labels are resolved by their names.**  In a listing that can be read, every method gives a body
in which its labels are resolved.  Behind methods that can be read, a method whose lines are well
formed on their own is refused just for the three faults of labels, and with it the listing.  If a
label is never placed, the fault is reported on the first line that names such a label; the line at
`j` of the method has `before.length + 2 + j` as its number. -/
theorem read_resolves_labels (source : String) :
    (∀ bodies, read source = .ok bodies →
      List.Forall₂ Gives (methodBlocks (lines source.toList)) bodies) ∧
    ∀ before method after bodies name ls, lines source.toList = before ++ method ++ after →
      ofLines before = .ok bodies → IsMethod name ls method →
      ((∃ fault, ofLines (before ++ method) = .error fault) ↔
        ¬ BlockLine.PlacedOnce ls ∨ (∃ label, BlockLine.NeverPlaced ls label) ∨
          ∃ label, BlockLine.PlacedAtEnd ls label) ∧
      (∀ fault, ofLines (before ++ method) = .error fault → read source = .error fault) ∧
      (BlockLine.PlacedOnce ls → (∃ label, BlockLine.NeverPlaced ls label) →
        ∃ j label, ofLines (before ++ method) =
            .error ⟨before.length + 2 + j, .labelNotPlaced label⟩ ∧
          BlockLine.Names ls j label ∧ BlockLine.NeverPlaced ls label ∧
          IsLeast {j | ∃ other, BlockLine.Names ls j other ∧ BlockLine.NeverPlaced ls other} j) := by
  constructor
  · intro bodies h
    rw [read, ofLines, bind_eq_ok_iff] at h
    obtain ⟨⟨read, block⟩, hread, h⟩ := h
    cases block with
    | some block => cases h
    | none =>
      obtain ⟨added, hadded, hblocks⟩ := resolves_of_readLines _ hread rfl
      obtain rfl : read.toList = bodies := Except.ok.inj h
      have heq : read.toList = added := hadded
      rw [heq]
      exact hblocks
  · intro before method after bodies name ls hlines hbefore hmethod
    obtain ⟨read', hread⟩ := exists_readLines_of_ofLines hbefore
    have hfault := hmethod.ofLines_eq_error_iff hread
    refine ⟨?_, ?_, ?_⟩
    · simp only [hfault]
      exact hmethod.exists_error_iff read' (1 + before.length)
    · intro fault herror
      rw [read, hlines]
      refine ofLines_append_of_error ?_ after
      rw [readLines_append, hread]
      exact (hfault fault).1 herror
    · intro honce hnever
      obtain ⟨j, label, herror, hnames, hlabel, hle⟩ :=
        hmethod.error_of_neverPlaced read' (1 + before.length) honce hnever
      have hline : before.length + 2 + j = 1 + before.length + 1 + j := by omega
      refine ⟨j, label, (hfault _).2 (by rw [hline]; exact herror), hnames, hlabel,
        ⟨label, hnames, hlabel⟩, ?_⟩
      rintro j' ⟨other, hnames', hnever'⟩
      exact hle j' other hnames' hnever'

/-- A method with a handler, a label on a line of its own, and jumps both ways. -/
def loopListing : String :=
  ".method Loop\n.catch on\ntop: ldarg.0\nswitch (out, top)\nbr.s top\non: pop\nout:\nret\n.end"

def loopBody : Body :=
  .ofInstructions "Loop"
    [{ code := .ldarg0 }, { code := .switch, operand := .switch [some 4, some 0] },
      { code := .brS, operand := .target (some 0) }, { code := .pop }, { code := .ret }]
    [{ kind := .typed, handlerStart := some 3 }]

/-- A method that names a label which it does not place. -/
def farListing : String := ".method Far\nbr.s near\nbr.s far\nnear: ret\n.end"

/-- What the lines of the method in `farListing` say. -/
def farLines : List BlockLine :=
  [{ statement := some (.instruction (.branch .brS "near")) },
    { statement := some (.instruction (.branch .brS "far")) },
    { label := some "near", statement := some (.instruction (.plain .ret .none)) }]

theorem loopListing_labels :
    (read loopListing = .ok [loopBody] ∧
      List.Forall₂ Gives (methodBlocks (lines loopListing.toList)) [loopBody]) ∧
    ∃ j label, read farListing = .error ⟨2 + j, .labelNotPlaced label⟩ ∧
      BlockLine.Names farLines j label ∧ BlockLine.NeverPlaced farLines label := by
  constructor
  · have hread : read loopListing = .ok [loopBody] := by decide +kernel
    exact ⟨hread, (read_resolves_labels loopListing).1 _ hread⟩
  · have hmethod : IsMethod "Far".toList farLines (lines farListing.toList) :=
      .intro ".method Far".toList ["br.s near".toList, "br.s far".toList, "near: ret".toList]
        ".end".toList (by decide) (by decide) (by decide +kernel) (by decide)
    have honce : BlockLine.PlacedOnce farLines := by
      have hlast : ∀ j < 3, ∀ l, farLines[j]? = some l → l.label ≠ none → j = 2 := by decide
      have hplace : ∀ label j, BlockLine.Places farLines j label → j = 2 := by
        rintro label j ⟨l, hget, hlabel⟩
        have hj : j < 3 := (List.getElem?_eq_some_iff.1 hget).1
        exact hlast j hj l hget (by rw [hlabel]; simp)
      intro label j j' hj hj'
      rw [hplace label j hj, hplace label j' hj']
    have hnever : BlockLine.NeverPlaced farLines "far" := by
      refine ⟨⟨1, _, rfl, List.mem_cons_self⟩, ?_⟩
      rintro j ⟨l, hget, hlabel⟩
      have hno : ∀ l ∈ farLines, l.label ≠ some "far" := by decide
      exact hno l (List.mem_of_getElem? hget) hlabel
    obtain ⟨-, hrefused, hfirst⟩ := (read_resolves_labels farListing).2 []
      (lines farListing.toList) [] [] "Far".toList farLines (by simp) rfl hmethod
    obtain ⟨j, label, herror, hnames, hlabel, -⟩ := hfirst honce ⟨"far", hnever⟩
    exact ⟨j, label, hrefused _ herror, hnames, hlabel⟩

end PushGuard.Listing
