import Mathlib.Tactic.MkIffOfInductiveProp
import PushGuard.Proofs.Positions

/-!
# Encoding exception sections

A reference encoder for exception sections, and the theorem that reading undoes it
(`readSections_encodeSections`).  A section is written in one of two formats.  A small one has a byte
for its size, and two more bytes that say nothing; a fat one has three bytes for its size, and its
clauses have wide fields.  Every section but the last says that another one follows, and is filled up
to a multiple of four bytes.

A section is found from the size of the one before it, so the sizes that are written have to be the
lengths of what is written (`length_encodeSection`).
-/

namespace PushGuard.Binary

/-! ## The encoder -/

/-- Every field of the clause has room in a word of its width. -/
@[mk_iff]
structure Clause.Fits (w : ClauseWidths) (c : Clause) : Prop where
  flags : c.flags < 256 ^ w.flags
  tryOffset : c.tryOffset < 256 ^ w.offset
  tryLength : c.tryLength < 256 ^ w.length
  handlerOffset : c.handlerOffset < 256 ^ w.offset
  handlerLength : c.handlerLength < 256 ^ w.length
  detail : c.detail < 256 ^ w.detail

instance (w : ClauseWidths) (c : Clause) : Decidable (c.Fits w) :=
  decidable_of_iff _ (Clause.fits_iff w c).symm

/-- The fields of a clause, one behind the other. -/
def encodeClause (w : ClauseWidths) (c : Clause) : List UInt8 :=
  intBytes w.flags c.flags ++ (intBytes w.offset c.tryOffset ++ (intBytes w.length c.tryLength ++
    (intBytes w.offset c.handlerOffset ++ (intBytes w.length c.handlerLength ++
      intBytes w.detail c.detail))))

/-- How a section is written. -/
inductive SectionFormat
  /-- Two bytes behind the size are reserved, and may hold anything. -/
  | small (reserved : UInt16)
  | fat

namespace SectionFormat

/-- The widths of the fields: of the flags, of an offset, of a length and of the last field. -/
def widths : SectionFormat → ClauseWidths
  | small _ => ⟨2, 2, 1, 4⟩
  | fat => ⟨4, 4, 4, 4⟩

/-- Bytes of a section with so many clauses, its first four included. -/
def size : SectionFormat → (count : Nat) → Nat
  | small _, count => 4 + 12 * count
  | fat, count => 4 + 24 * count

/-- The section has room for so many clauses: its size fits into one byte or into three. -/
def HasRoom : SectionFormat → (count : Nat) → Prop
  | small _, count => count ≤ 20
  | fat, count => 4 + 24 * count < 2 ^ 24

instance : (f : SectionFormat) → (count : Nat) → Decidable (f.HasRoom count)
  | small _, count => inferInstanceAs (Decidable (count ≤ 20))
  | fat, count => inferInstanceAs (Decidable (4 + 24 * count < 2 ^ 24))

/-- The bit of the kind that tells the formats apart. -/
def kindBit : SectionFormat → UInt8
  | small _ => 0x00
  | fat => 0x40

/-- The size of a section, in the three bytes behind its kind. -/
def sizeBytes : SectionFormat → (size : Nat) → List UInt8
  | small reserved, size => intBytes 1 size ++ intBytes 2 reserved.toNat
  | fat, size => intBytes 3 size

end SectionFormat

/-- Clauses that can be written as one section. -/
structure ClauseTable where
  format : SectionFormat
  clauses : List Clause
  fits : ∀ c ∈ clauses, c.Fits format.widths
  hasRoom : format.HasRoom clauses.length

namespace ClauseTable

def size (t : ClauseTable) : Nat := t.format.size t.clauses.length

/-- The kind of the section: exception clauses, their format, and whether another section follows. -/
def kind (t : ClauseTable) (more : Bool) : UInt8 :=
  0x01 ||| t.format.kindBit ||| (if more then 0x80 else 0x00)

end ClauseTable

def encodeSection (more : Bool) (t : ClauseTable) : List UInt8 :=
  t.kind more ::
    (t.format.sizeBytes t.size ++ t.clauses.flatMap (encodeClause t.format.widths))

/-- The bytes, with zeros up to the next multiple of four. -/
def padded (bytes : List UInt8) : List UInt8 :=
  bytes ++ List.replicate ((4 - bytes.length % 4) % 4) 0

/-- The sections, each at a multiple of four bytes. -/
def encodeSections : List ClauseTable → List UInt8
  | [] => []
  | [last] => encodeSection false last
  | t :: next :: later => padded (encodeSection true t) ++ encodeSections (next :: later)

/-! ## Sizes -/

theorem length_encodeClause (w : ClauseWidths) (c : Clause) :
    (encodeClause w c).length = w.total := by
  simp only [encodeClause, List.length_append, length_intBytes, ClauseWidths.total]
  omega

theorem length_flatMap_encodeClause (w : ClauseWidths) (clauses : List Clause) :
    (clauses.flatMap (encodeClause w)).length = w.total * clauses.length := by
  induction clauses with
  | nil => rfl
  | cons c clauses ih =>
    rw [List.flatMap_cons, List.length_append, ih, length_encodeClause, List.length_cons,
      Nat.mul_succ, Nat.add_comm]

theorem SectionFormat.length_sizeBytes (f : SectionFormat) (size : Nat) :
    (f.sizeBytes size).length = 3 := by
  cases f <;> simp [sizeBytes]

theorem ClauseTable.size_eq (t : ClauseTable) :
    t.size = 4 + t.format.widths.total * t.clauses.length := by
  unfold size
  cases t.format <;> rfl

theorem length_encodeSection (more : Bool) (t : ClauseTable) :
    (encodeSection more t).length = t.size := by
  rw [encodeSection, List.length_cons, List.length_append, SectionFormat.length_sizeBytes,
    length_flatMap_encodeClause, t.size_eq]
  omega

theorem length_padded (bytes : List UInt8) : (padded bytes).length = align4 bytes.length := by
  rw [padded, List.length_append, List.length_replicate, align4]
  omega

/-! ## Reading one section -/

theorem readClause_encodeClause {w : ClauseWidths} {c : Clause} (h : c.Fits w) (rest : List UInt8) :
    readClause w (encodeClause w c ++ rest) = .ok (c, rest) := by
  simp only [readClause, encodeClause, List.append_assoc, readWord_intBytes, bind, Except.bind,
    toNat_emod_of_lt h.flags, toNat_emod_of_lt h.tryOffset, toNat_emod_of_lt h.tryLength,
    toNat_emod_of_lt h.handlerOffset, toNat_emod_of_lt h.handlerLength, toNat_emod_of_lt h.detail]
  rfl

theorem readClauses_encodeClause {w : ClauseWidths} {clauses : List Clause}
    (h : ∀ c ∈ clauses, c.Fits w) (rest : List UInt8) :
    readClauses w clauses.length (clauses.flatMap (encodeClause w) ++ rest) = .ok clauses := by
  induction clauses with
  | nil => rfl
  | cons c clauses ih =>
    have hfirst := h c List.mem_cons_self
    have hlater := ih fun c' hc' => h c' (List.mem_cons_of_mem c hc')
    rw [List.flatMap_cons, List.append_assoc, List.length_cons, readClauses,
      readClause_encodeClause hfirst]
    show (readClauses w clauses.length (clauses.flatMap (encodeClause w) ++ rest) >>= _) = _
    rw [hlater]
    rfl

namespace ClauseTable

variable (t : ClauseTable)

theorem four_le_size : 4 ≤ t.size := by
  rw [t.size_eq]
  exact Nat.le_add_right _ _

/-- The kind says of each of its three parts what was written there. -/
theorem kind_spec (more : Bool) :
    t.kind more &&& 0x01 ≠ 0 ∧ t.kind more &&& 0x40 = t.format.kindBit ∧
      (t.kind more &&& 0x80 != 0) = more := by
  have hbit : t.format.kindBit = 0x00 ∨ t.format.kindBit = 0x40 := by
    cases t.format with
    | small _ => exact Or.inl rfl
    | fat => exact Or.inr rfl
  unfold kind
  rcases hbit with hbit | hbit
  · rw [hbit]
    cases more <;> decide
  · rw [hbit]
    cases more <;> decide

/-- The number of clauses is found from the size. -/
theorem count_of_size : (t.size - 4) / t.format.widths.total = t.clauses.length := by
  have hpos : 0 < t.format.widths.total := by
    cases t.format <;> exact Nat.succ_pos _
  rw [t.size_eq, Nat.add_sub_cancel_left, Nat.mul_div_cancel_left _ hpos]

end ClauseTable

/-- What is read of a section that was written. -/
def ClauseTable.toSection (t : ClauseTable) (more : Bool) : Section :=
  ⟨t.clauses, t.size, more, t.four_le_size⟩

theorem readSectionBody_encode (t : ClauseTable) (more : Bool) (rest : List UInt8) :
    readSectionBody (t.kind more) t.format.widths t.size
        (t.clauses.flatMap (encodeClause t.format.widths) ++ rest) =
      .ok (t.toSection more) := by
  obtain ⟨-, -, hmore⟩ := t.kind_spec more
  rw [readSectionBody, dif_pos t.four_le_size, t.count_of_size, readClauses_encodeClause t.fits]
  simp only [bind, Except.bind, hmore]
  rfl

/-- Reading a section undoes writing it, whatever bytes follow. -/
theorem readSection_encodeSection (t : ClauseTable) (more : Bool) (rest : List UInt8) :
    readSection (encodeSection more t ++ rest) = .ok (t.toSection more) := by
  obtain ⟨htable, hformat, -⟩ := t.kind_spec more
  have hbody := readSectionBody_encode t more rest
  have hroom := t.hasRoom
  have hsize : t.size = t.format.size t.clauses.length := rfl
  rw [encodeSection, List.cons_append, readSection, if_neg htable, List.append_assoc]
  cases hcase : t.format with
  | small reserved =>
    rw [hcase] at hformat hbody hroom hsize
    have hfits : t.size < 256 ^ 1 := by
      simp only [SectionFormat.HasRoom] at hroom
      simp only [SectionFormat.size] at hsize
      omega
    have hsmall : ¬ t.kind more &&& 0x40 ≠ 0 := not_not_intro hformat
    rw [if_neg hsmall]
    simp only [SectionFormat.sizeBytes, List.append_assoc, readWord_intBytes,
      toNat_emod_of_lt hfits, bind, Except.bind]
    exact hbody
  | fat =>
    rw [hcase] at hformat hbody hroom hsize
    have hfits : t.size < 256 ^ 3 := by
      simp only [SectionFormat.HasRoom] at hroom
      simp only [SectionFormat.size] at hsize
      omega
    have hfat : t.kind more &&& 0x40 ≠ 0 := by
      rw [hformat]
      decide
    rw [if_pos hfat]
    simp only [SectionFormat.sizeBytes, readWord_intBytes, toNat_emod_of_lt hfits, bind,
      Except.bind]
    exact hbody

/-! ## Reading all sections -/

/-- Behind a section that is not the last one, what follows is read as if it stood alone: the next
section starts where the filled one ends. -/
theorem readSections_padded (t : ClauseTable) (rest : List UInt8) :
    readSections (padded (encodeSection true t) ++ rest) =
      (readSections rest).map (t.clauses ++ ·) := by
  have hfirst : readSection (padded (encodeSection true t) ++ rest) = .ok (t.toSection true) := by
    rw [padded, List.append_assoc]
    exact readSection_encodeSection t true _
  have hlength : (padded (encodeSection true t)).length = align4 t.size := by
    rw [length_padded, length_encodeSection]
  have hrest : (padded (encodeSection true t) ++ rest).drop (align4 (t.toSection true).size) = rest :=
    List.drop_left' hlength
  rw [readSections_eq_bind, hfirst]
  show (readSections _).map (t.clauses ++ ·) = _
  rw [hrest]

/-- **Reading undoes encoding of sections.**  Sections of both formats, mixed in any number and order,
are read as all their clauses in order, whatever bytes follow the last one. -/
theorem readSections_encodeSections (tables : List ClauseTable) (trailing : List UInt8)
    (h : tables ≠ []) :
    readSections (encodeSections tables ++ trailing) = .ok (tables.flatMap ClauseTable.clauses) := by
  fun_induction encodeSections tables with
  | case1 => exact absurd rfl h
  | case2 last =>
    rw [readSections_eq_bind, readSection_encodeSection, List.flatMap_singleton]
    rfl
  | case3 t next later ih =>
    rw [List.append_assoc, readSections_padded, ih (List.cons_ne_nil next later), List.flatMap_cons]
    rfl

/-- A clause with the largest fields that a small section has room for. -/
def widestClause : Clause := ⟨0xFFFF, 0xFFFF, 0xFF, 0xFFFF, 0xFF, 0xFFFFFFFF⟩

/-- A clause of which one field needs a fat section. -/
def longClause : Clause := ⟨2, 0, 0x100, 0x100, 3, 0⟩

/-- A small section, a fat one and an empty small one. -/
def mixedTables : List ClauseTable :=
  [⟨.small 0xABCD, [widestClause], by decide, by decide⟩,
    ⟨.fat, [longClause], by decide, by decide⟩, ⟨.small 0, [], by decide, by decide⟩]

/-- The bytes behind the last section are no clauses, though they look like them. -/
theorem mixedTables_read : mixedTables ≠ [] ∧
    encodeSections mixedTables =
      [0x81, 0x10, 0xCD, 0xAB, 0xFF, 0xFF, 0xFF, 0xFF, 0xFF, 0xFF, 0xFF, 0xFF, 0xFF, 0xFF, 0xFF, 0xFF,
        0xC1, 0x1C, 0x00, 0x00, 0x02, 0x00, 0x00, 0x00, 0x00, 0x00, 0x00, 0x00, 0x00, 0x01, 0x00, 0x00,
        0x00, 0x01, 0x00, 0x00, 0x03, 0x00, 0x00, 0x00, 0x00, 0x00, 0x00, 0x00,
        0x01, 0x04, 0x00, 0x00] ∧
    readSections (encodeSections mixedTables ++ List.replicate 12 0xFF) =
      .ok [widestClause, longClause] :=
  ⟨List.cons_ne_nil _ _, by decide, readSections_encodeSections mixedTables _ (List.cons_ne_nil _ _)⟩

end PushGuard.Binary
