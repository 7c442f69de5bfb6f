import PushGuard.Proofs.ListingComposition
import PushGuard.Proofs.ListingLabels
import PushGuard.Proofs.NumberedLabels

/-!
# The lines of faults

A fault names the line that is read when it is found, or one that is remembered from before: a label
that is never placed is reported at the end of its method, on the line that names it
(`readLine_fault_cases`).  The lines that an open method remembers are in front of the one that is read
(`Progress.After.readLine`), so every fault is on a line of the listing.  No fault is left to the
builder (`read_faults_located`).
-/

namespace PushGuard.Listing

open Text

/-- The method is read up to this line, and the names that it remembers stand on lines before. -/
def Block.After (line : Nat) (block : Block) : Prop :=
  ∀ named ∈ block.namedOn, 1 ≤ named.1 ∧ named.1 < line

/-- The listing is read up to this line. -/
structure Progress.After (line : Nat) (progress : Progress) : Prop where
  line_pos : 1 ≤ line
  block : ∀ block, progress.block = some block → block.After line

/-! ## Lines that are remembered -/

theorem Block.Takes.after {block block' : Block} {line : Nat} {l : BlockLine}
    (h : block.Takes line l block') (hline : 1 ≤ line) (hblock : block.After line) :
    block'.After (line + 1) := by
  intro named hnamed
  rcases (h.namedOn named).1 hnamed with hbefore | ⟨heq, -⟩
  · have := hblock named hbefore
    omega
  · omega

/-- One line more. -/
theorem Progress.After.readLine {line : Nat} {progress progress' : Progress} {raw : List Char}
    (h : progress.After line) (hread : readLine progress line raw = .ok progress') :
    progress'.After (line + 1) := by
  refine ⟨Nat.le_succ_of_le h.line_pos, ?_⟩
  obtain ⟨bodies, block⟩ := progress
  cases block with
  | none =>
    rcases readLine_outside_cases hread with ⟨-, rfl⟩ | ⟨name, hopen, hname⟩
    · rintro block ⟨⟩
    · rw [readLine_of_method hopen hname] at hread
      obtain rfl := Except.ok.inj hread
      rintro block ⟨⟩ named hnamed
      cases hnamed
  | some block =>
    by_cases hend : lineText raw = ".end".toList
    · rw [readLine_of_end hend, bind_eq_ok_iff] at hread
      obtain ⟨body, -, hclosed⟩ := hread
      obtain rfl := Except.ok.inj hclosed
      rintro block ⟨⟩
    · obtain ⟨l, hl⟩ := exists_says_of_readLine hend hread
      rw [hl.readLine_eq] at hread
      rcases block.take_cases line l with ⟨label, earlier, -, -, htake⟩ | ⟨taken, htake, htakes⟩
      · rw [htake] at hread
        cases hread
      · rw [htake] at hread
        obtain rfl := Except.ok.inj hread
        rintro block' ⟨⟩
        exact htakes.after h.line_pos (h.block block rfl)

/-- Up to any line of a listing. -/
theorem Progress.After.readLines {raws : List (List Char)} {progress : Progress}
    (hread : readLines {} 1 raws = .ok progress) : progress.After (1 + raws.length) := by
  refine readLines_invariant Progress.After (fun _ _ _ _ h hline => h.readLine hline) ?_ hread
  refine ⟨Nat.le_refl 1, ?_⟩
  rintro block ⟨⟩

/-! ## Lines that are reported -/

theorem Block.finish_fault_cases {block : Block} {line : Nat} {fault : ListingFault}
    (h : block.finish line = .error fault) :
    (fault.line = line ∨ ∃ named ∈ block.namedOn, fault.line = named.1) ∧
      fault.cause ≠ .missingEnd := by
  unfold finish at h
  rcases block.firstUnplaced?_cases with ⟨hfirst, -⟩ | ⟨named, hfirst, hnamed, -⟩
  · simp only [hfirst] at h
    split at h
    · cases h
    · obtain rfl := Except.error.inj h
      exact ⟨Or.inl rfl, nofun⟩
  · simp only [hfirst] at h
    obtain rfl := Except.error.inj h
    exact ⟨Or.inr ⟨named, hnamed, rfl⟩, nofun⟩

theorem Block.readLine_fault_cases {block : Block} {line : Nat} {text : List Char}
    {cause : LineFault} (h : block.readLine line text = .error cause) :
    (∃ label earlier, cause = .labelPlaced label earlier) ∨ cause.isOwn = true := by
  have hstatement : ∀ (block : Block) (text : List Char),
      (readStatement text >>= fun statement => .ok (block.add line statement)) = .error cause →
        cause.isOwn = true := by
    intro block text hread
    rcases (bind_eq_error_iff _ _ _).1 hread with hread | ⟨statement, -, hadd⟩
    · exact isOwn_of_readStatement hread
    · cases hadd
  unfold readLine at h
  split at h
  · exact Or.inr (hstatement block text h)
  · next label rest hsplit =>
    rcases (bind_eq_error_iff _ _ _).1 h with hplace | ⟨placed, -, h⟩
    · unfold place at hplace
      split at hplace
      · next earlier _ => exact Or.inl ⟨label, earlier, (Except.error.inj hplace).symm⟩
      · cases hplace
    · simp only at h
      split at h
      · cases h
      · exact Or.inr (hstatement placed (trim rest) h)

/-- A line is refused for itself, or for a name that an open method remembers, but never for an end
that is missing. -/
theorem readLine_fault_cases {progress : Progress} {line : Nat} {raw : List Char}
    {fault : ListingFault} (h : readLine progress line raw = .error fault) :
    (fault.line = line ∨
      ∃ block, progress.block = some block ∧ ∃ named ∈ block.namedOn, fault.line = named.1) ∧
      fault.cause ≠ .missingEnd := by
  have hline : ∀ {cause}, (.error ⟨line, cause⟩ : Except ListingFault Progress) = .error fault →
      cause ≠ .missingEnd → fault.line = line ∧ fault.cause ≠ .missingEnd := by
    intro cause heq hcause
    rw [← Except.error.inj heq]
    exact ⟨rfl, hcause⟩
  obtain ⟨bodies, block⟩ := progress
  unfold readLine at h
  simp only at h
  split at h
  · cases h
  cases hmethod : directive? ".method" (trim (stripComment .outside raw)) with
  | some name =>
    cases block with
    | some block =>
      simp only [hmethod] at h
      exact (hline h nofun).imp_left Or.inl
    | none =>
      simp only [hmethod] at h
      split at h
      · exact (hline h nofun).imp_left Or.inl
      · cases h
  | none =>
    cases block with
    | none =>
      simp only [hmethod] at h
      split at h <;> exact (hline h nofun).imp_left Or.inl
    | some block =>
      simp only [hmethod] at h
      split at h
      · rcases (bind_eq_error_iff _ _ _).1 h with hfinish | ⟨body, -, hclosed⟩
        · obtain ⟨heq | hnamed, hcause⟩ := Block.finish_fault_cases hfinish
          · exact ⟨Or.inl heq, hcause⟩
          · exact ⟨Or.inr ⟨block, rfl, hnamed⟩, hcause⟩
        · cases hclosed
      · split at h
        · cases h
        · next cause hread =>
          refine (hline h ?_).imp_left Or.inl
          rcases Block.readLine_fault_cases hread with ⟨label, earlier, rfl⟩ | hown
          · exact nofun
          · rintro rfl
            cases hown

/-- No line is refused for an end that is missing. -/
theorem cause_of_readLines {progress : Progress} {line : Nat} {raws : List (List Char)}
    {fault : ListingFault} (h : readLines progress line raws = .error fault) :
    fault.cause ≠ .missingEnd := by
  obtain ⟨front, raw, back, next, -, -, hraw⟩ := exists_line_of_readLines h
  exact (readLine_fault_cases hraw).2

/-- Lines that are refused have the line to blame among them. -/
theorem line_of_readLines {raws : List (List Char)} {fault : ListingFault}
    (h : readLines {} 1 raws = .error fault) : 1 ≤ fault.line ∧ fault.line ≤ raws.length := by
  obtain ⟨front, raw, back, progress, rfl, hfront, hraw⟩ := exists_line_of_readLines h
  have hafter := Progress.After.readLines hfront
  rw [List.length_append, List.length_cons]
  rcases (readLine_fault_cases hraw).1 with heq | ⟨block, hblock, named, hnamed, heq⟩
  · omega
  · have := hafter.block block hblock named hnamed
    omega

theorem line_of_ofLines {raws : List (List Char)} {fault : ListingFault}
    (h : ofLines raws = .error fault) : 1 ≤ fault.line ∧ fault.line ≤ raws.length := by
  rw [ofLines, bind_eq_error_iff] at h
  rcases h with h | ⟨⟨bodies, block⟩, hread, h⟩
  · exact line_of_readLines h
  · cases block with
    | none => cases h
    | some block =>
      -- no method is open in front of the first line
      have hne : raws ≠ [] := by
        rintro rfl
        cases hread
      obtain rfl := Except.error.inj h
      exact ⟨List.length_pos_iff.2 hne, Nat.le_refl _⟩

/-- **Every fault is located.**  A listing is refused with the number of one of its lines.  With a
builder that hands out its labels and whose faults are passed on, the same listings are read and the
others are refused for the same faults of the listing, so the builder has none of its own.  In a method
that is open after some of the lines, the names with a known line are just those that the builder has
placed, so it is never told to place a label for the second time. -/
theorem read_faults_located (source : String) :
    (∀ fault, read source = .error fault →
      1 ≤ fault.line ∧ fault.line ≤ (lines source.toList).length) ∧
    readNumbered source = (read source).mapError .inListing ∧
    ∀ front bodies block, front <+: lines source.toList →
      readLines {} 1 front = .ok ⟨bodies, some block⟩ →
      ∀ label, block.placedOn.lookup label = none ↔ block.builder.place? label = none :=
  ⟨fun _ hfault => line_of_ofLines hfault, readNumbered_eq_mapError source,
    fun _ _ _ _ hread label => placedOn_eq_none_iff hread label⟩

/-- A method that names a label at its end, where no instruction follows. -/
def lateListing : String := ".method Late\nbr.s out\nin: nop\nout:\n.end"

/-- The method in `lateListing` in front of its end. -/
def lateBlock : Block where
  builder :=
    { name := "Late"
      drafts := #[.branch .brS "out", .plain .nop .none]
      placed := [("out", 2), ("in", 1)] }
  placedOn := [("out", 4), ("in", 3)]
  namedOn := [(2, "out")]

theorem lateListing_located :
    (read lateListing = .error ⟨5, .labelAtEnd⟩ ∧ 5 ≤ (lines lateListing.toList).length) ∧
    readNumbered lateListing = .error (.inListing ⟨5, .labelAtEnd⟩) ∧
    readLines {} 1 ((lines lateListing.toList).take 4) = .ok ⟨#[], some lateBlock⟩ ∧
    (lateBlock.placedOn.lookup "out" = none ↔ lateBlock.builder.place? "out" = none) := by
  obtain ⟨hline, hnumbered, hplaced⟩ := read_faults_located lateListing
  have hread : read lateListing = .error ⟨5, .labelAtEnd⟩ := by decide +kernel
  have hfront : readLines {} 1 ((lines lateListing.toList).take 4) = .ok ⟨#[], some lateBlock⟩ := by
    rfl
  refine ⟨⟨hread, (hline _ hread).2⟩, ?_, hfront, ?_⟩
  · rw [hnumbered, hread]
    rfl
  · exact hplaced _ _ _ (List.take_prefix 4 _) hfront "out"

end PushGuard.Listing
