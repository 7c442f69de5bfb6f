import PushGuard.Proofs.CodeStream

/-!
# Where branches and handlers point

In the bytes, a branch holds the distance from its end to its target, and an exception clause holds
the offsets and lengths of its blocks.  A body that was read has instructions in their places.  These
are exact (`Body.Locates`): there is an instruction if one starts at the offset, and there is none if
the offset lies in front of the code, behind it or within an instruction.

For the clauses, `SectionsHold` says where in the bytes they stand, and `Clause.Describes` what a
clause makes of a handler.
-/

namespace PushGuard

/-! ## Offsets at which an instruction starts -/

namespace Body

/-- The target is the instruction that starts at an offset into code of so many bytes. -/
structure Locates (b : Body) (size : Nat) (offset : Int) (target : Option InstructionId) :
    Prop where
  some_iff : ∀ id, target = some id ↔ ∃ i, b.get? id = some i ∧ (i.offset.toNat : Int) = offset
  none_iff : target = none ↔ ∀ id i, b.get? id = some i → (i.offset.toNat : Int) ≠ offset
  none_iff_outside : target = none ↔ offset < 0 ∨ (size : Int) ≤ offset ∨
    ∃ id i, b.get? id = some i ∧ (i.offset.toNat : Int) < offset ∧
      offset < (i.offset.toNat + i.width : Nat)

variable {b : Body} {size : Nat} {offset : Int} {target : Option InstructionId}

theorem Locates.lt_size (h : b.Locates size offset target) {id : InstructionId}
    (hid : target = some id) : id < b.size := by
  obtain ⟨i, hget, -⟩ := (h.some_iff id).1 hid
  exact b.lt_size_of_get? id i hget

namespace Tiles

/-- Two instructions do not overlap: none starts within another. -/
theorem not_within (h : b.Tiles size) {id other : InstructionId} {i j : Instruction}
    (hi : b.get? id = some i) (hj : b.get? other = some j) (hlt : i.offset.toNat < j.offset.toNat) :
    i.offset.toNat + i.width ≤ j.offset.toNat := by
  rw [h.offset id i hi, h.offset other j hj] at hlt
  rw [h.offset id i hi, h.offset other j hj, ← startOf_succ hi]
  apply startOf_mono b.instructions
  by_contra hother
  have hle : other ≤ id := Nat.le_of_lt_succ (Nat.lt_of_not_le hother)
  exact absurd hlt (Nat.not_lt.2 (startOf_mono b.instructions hle))

/-- Where no instruction starts. -/
theorem no_start_iff (h : b.Tiles size) (offset : Int) :
    (∀ id i, b.get? id = some i → (i.offset.toNat : Int) ≠ offset) ↔
      offset < 0 ∨ (size : Int) ≤ offset ∨
        ∃ id i, b.get? id = some i ∧ (i.offset.toNat : Int) < offset ∧
          offset < (i.offset.toNat + i.width : Nat) := by
  constructor
  · intro hnone
    by_cases hneg : offset < 0
    · exact Or.inl hneg
    by_cases hpast : (size : Int) ≤ offset
    · exact Or.inr (Or.inl hpast)
    -- an offset in the code belongs to some instruction, and is not its first byte
    have hbyte : offset.toNat < codeSize b.instructions := by
      rw [h.size]
      omega
    obtain ⟨id, i, hget, hle, hlt⟩ := exists_covering b.instructions hbyte
    have hstart := hnone id i hget
    rw [← h.offset id i hget] at hle hlt
    exact Or.inr (Or.inr ⟨id, i, hget, by omega, by omega⟩)
  · rintro (hneg | hpast | ⟨id, i, hget, hlt, hend⟩) other j hj hstart
    · omega
    · have hle := h.end_le hj
      have hwidth := j.width_pos
      omega
    · have hle := h.not_within hget hj (by omega)
      omega

theorem locates (h : b.Tiles size)
    (hsome : ∀ id, target = some id ↔ ∃ i, b.get? id = some i ∧ (i.offset.toNat : Int) = offset) :
    b.Locates size offset target := by
  have hnone : target = none ↔ ∀ id i, b.get? id = some i → (i.offset.toNat : Int) ≠ offset := by
    rw [Option.eq_none_iff_forall_ne_some]
    constructor
    · intro hne id i hget hstart
      exact hne id ((hsome id).2 ⟨i, hget, hstart⟩)
    · intro hne id hid
      obtain ⟨i, hget, hstart⟩ := (hsome id).1 hid
      exact hne id i hget hstart
  exact ⟨hsome, hnone, hnone.trans (h.no_start_iff offset)⟩

end Tiles

end Body

namespace Binary

/-! ## Targets -/

section Code

variable {tokens : TokenTable} {code : List UInt8} {starts : List CodedInstruction}

/-- Offsets increase, so the first instruction with an offset is the only one. -/
theorem findStart?_eq_some_iff (h : readCode tokens code = .ok starts) {offset : Int}
    {id : InstructionId} :
    findStart? starts offset = some id ↔ ∃ c, starts[id]? = some c ∧ (c.offset : Int) = offset := by
  unfold findStart?
  rw [List.findIdx?_eq_some_iff_getElem]
  constructor
  · rintro ⟨hid, hsame, -⟩
    exact ⟨starts[id], List.getElem?_eq_getElem hid, beq_iff_eq.1 hsame⟩
  · rintro ⟨c, hc, rfl⟩
    obtain ⟨hid, rfl⟩ := List.getElem?_eq_some_iff.1 hc
    refine ⟨hid, beq_self_eq_true _, fun before hbefore hsame => ?_⟩
    have hlt : before < starts.length := Nat.lt_trans hbefore hid
    have hstarts := (heads_of_readCodeFrom h starts).2
    have hoffset := (hstarts id _ hc).1
    have hoffset' := (hstarts before _ (List.getElem?_eq_getElem hlt)).1
    have hstart := startOf_lt hbefore
      (show before < (starts.map (CodedInstruction.linked starts)).length by rwa [List.length_map])
    have heq := beq_iff_eq.1 hsame
    omega

variable (h : readCode tokens code = .ok starts) (hsize : code.length < 2 ^ 32) (name : String)
  (handlers : List Handler)

include h hsize

theorem locates_findStart? (offset : Int) :
    (Body.mk name (link starts) handlers).Locates code.length offset
      (findStart? starts offset) := by
  apply (tiles_of_readCode h hsize name handlers).locates
  intro id
  rw [findStart?_eq_some_iff h]
  constructor
  · rintro ⟨c, hc, hoffset⟩
    refine ⟨c.linked starts, getElem?_link_eq_some_iff.2 ⟨c, hc, rfl⟩, ?_⟩
    rwa [toNat_offset_linked h hsize hc]
  · rintro ⟨i, hget, hoffset⟩
    obtain ⟨c, hc, rfl⟩ := getElem?_link_eq_some_iff.1 hget
    rw [toNat_offset_linked h hsize hc] at hoffset
    exact ⟨c, hc, hoffset⟩

/-- No instruction starts where offsets of 32 bits do not reach. -/
theorem locates_endOf? (start length : Nat) :
    (Body.mk name (link starts) handlers).Locates code.length (start + length : Nat)
      (Clause.endOf? starts start length) := by
  unfold Clause.endOf?
  split
  · exact locates_findStart? h hsize name handlers _
  · next hpast =>
    apply (tiles_of_readCode h hsize name handlers).locates
    intro id
    constructor
    · intro hnone
      cases hnone
    · rintro ⟨i, -, hoffset⟩
      have hlt := i.offset.toNat_lt
      have hwords : UInt32.size = 2 ^ 32 := rfl
      omega

/-- The targets of an instruction lie as far behind its end as its bytes say. -/
theorem targets_located {id : InstructionId} {i : Instruction} (hget : (link starts)[id]? = some i) :
    List.Forall₂ (fun d target => (Body.mk name (link starts) handlers).Locates code.length
        ((i.offset.toNat + i.width : Nat) + d) target)
      (displacements i.code.shape (code.drop (i.offset.toNat + i.code.size))) i.operand.targets := by
  obtain ⟨c, hc, rfl⟩ := getElem?_link_eq_some_iff.1 hget
  obtain ⟨hoffset, hheads⟩ := (heads_of_readCodeFrom h starts).2 id c hc
  have htargets := hheads.targets
  rw [Nat.zero_add] at hoffset
  rw [← hoffset, List.drop_drop] at htargets
  rw [toNat_offset_linked h hsize hc, htargets, List.forall₂_map_right_iff]
  exact List.forall₂_same.2 fun d _ => locates_findStart? h hsize name handlers _

end Code

/-! ## Exception clauses -/

section Sections

variable {bytes rest : List UInt8} {w : ClauseWidths}

/-- The clause in the first bytes. -/
def clauseAt (w : ClauseWidths) (bytes : List UInt8) : Clause where
  flags := wordAt w.flags 0 bytes
  tryOffset := wordAt w.offset w.flags bytes
  tryLength := wordAt w.length (w.flags + w.offset) bytes
  handlerOffset := wordAt w.offset (w.flags + w.offset + w.length) bytes
  handlerLength := wordAt w.length (w.flags + w.offset + w.length + w.offset) bytes
  detail := wordAt w.detail (w.flags + w.offset + w.length + w.offset + w.length) bytes

/-- So many clauses, one behind the other. -/
def clausesAt (w : ClauseWidths) (count : Nat) (bytes : List UInt8) : List Clause :=
  (List.range count).map fun m => clauseAt w (bytes.drop (w.total * m))

theorem readClause_eq_ok {c : Clause} (h : readClause w bytes = .ok (c, rest)) :
    w.total ≤ bytes.length ∧ c = clauseAt w bytes ∧ rest = bytes.drop w.total := by
  rw [readClause, bind_eq_ok_iff] at h
  obtain ⟨⟨flags, bytes₁⟩, hflags, h⟩ := h
  obtain ⟨⟨tryOffset, bytes₂⟩, htryOffset, h⟩ := (bind_eq_ok_iff _ _ _).1 h
  obtain ⟨⟨tryLength, bytes₃⟩, htryLength, h⟩ := (bind_eq_ok_iff _ _ _).1 h
  obtain ⟨⟨handlerOffset, bytes₄⟩, hhandlerOffset, h⟩ := (bind_eq_ok_iff _ _ _).1 h
  obtain ⟨⟨handlerLength, bytes₅⟩, hhandlerLength, h⟩ := (bind_eq_ok_iff _ _ _).1 h
  obtain ⟨⟨detail, bytes₆⟩, hdetail, h⟩ := (bind_eq_ok_iff _ _ _).1 h
  obtain ⟨rfl, rfl⟩ := Prod.mk.inj (Except.ok.inj h)
  obtain ⟨hle₁, rfl, rfl⟩ := readWord_eq_ok_iff.1 hflags
  obtain ⟨hle₂, rfl, rfl⟩ := readWord_eq_ok_iff.1 htryOffset
  obtain ⟨hle₃, rfl, rfl⟩ := readWord_eq_ok_iff.1 htryLength
  obtain ⟨hle₄, rfl, rfl⟩ := readWord_eq_ok_iff.1 hhandlerOffset
  obtain ⟨hle₅, rfl, rfl⟩ := readWord_eq_ok_iff.1 hhandlerLength
  obtain ⟨hle₆, rfl, rfl⟩ := readWord_eq_ok_iff.1 hdetail
  have htotal : w.flags + w.offset + w.length + w.offset + w.length + w.detail = w.total := by
    unfold ClauseWidths.total
    omega
  simp only [List.length_drop] at hle₁ hle₂ hle₃ hle₄ hle₅ hle₆
  refine ⟨by omega, ?_, ?_⟩
  · simp only [List.drop_drop, wordAt_drop, Nat.add_zero]
    rfl
  · simp only [List.drop_drop, htotal]

theorem readClauses_eq_ok {count : Nat} {clauses : List Clause}
    (h : readClauses w count bytes = .ok clauses) : clauses = clausesAt w count bytes := by
  induction count generalizing bytes clauses with
  | zero => exact (Except.ok.inj h).symm
  | succ count ih =>
    rw [readClauses, bind_eq_ok_iff] at h
    obtain ⟨⟨clause, rest⟩, hclause, h⟩ := h
    obtain ⟨later, hlater, h⟩ := (bind_eq_ok_iff _ _ _).1 h
    obtain rfl := Except.ok.inj h
    obtain ⟨-, rfl, rfl⟩ := readClause_eq_ok hclause
    obtain rfl := ih hlater
    unfold clausesAt
    rw [List.range_succ_eq_map, List.map_cons, List.map_map]
    simp only [List.drop_drop, Function.comp_def, Nat.mul_zero, List.drop_zero, Nat.mul_succ,
      Nat.add_comm]

/-- The fields of the section's clauses are wide. -/
def isFatSection (bytes : List UInt8) : Bool := bytes.headD 0 &&& 0x40 != 0

/-- The widths of the fields of the section's clauses. -/
def sectionWidths (bytes : List UInt8) : ClauseWidths :=
  if isFatSection bytes then .fat else .small

/-- Another section stands behind the first. -/
def isFollowed (bytes : List UInt8) : Bool := bytes.headD 0 &&& 0x80 != 0

/-- Bytes of the first section, in three bytes or in one behind its kind. -/
def sectionSize (bytes : List UInt8) : Nat :=
  if isFatSection bytes then wordAt 3 1 bytes else wordAt 1 1 bytes

/-- The clauses of the first section: as many as fit behind its first four bytes. -/
def sectionClauses (bytes : List UInt8) : List Clause :=
  clausesAt (sectionWidths bytes) ((sectionSize bytes - 4) / (sectionWidths bytes).total)
    (bytes.drop 4)

/-- The clauses of all sections in their order.  A section starts at a multiple of four bytes behind
the start of the one before. -/
inductive SectionsHold : List UInt8 → List Clause → Prop
  | last {bytes : List UInt8} (hlast : isFollowed bytes = false) :
    SectionsHold bytes (sectionClauses bytes)
  | followed {bytes : List UInt8} {clauses : List Clause} (hmore : isFollowed bytes = true)
    (hrest : SectionsHold (bytes.drop (align4 (sectionSize bytes))) clauses) :
    SectionsHold bytes (sectionClauses bytes ++ clauses)

theorem readSectionBody_eq_ok {kind : UInt8} {size : Nat} {s : Section}
    (h : readSectionBody kind w size bytes = .ok s) :
    readClauses w ((size - 4) / w.total) bytes = .ok s.clauses ∧ s.size = size ∧
      s.more = (kind &&& 0x80 != 0) := by
  unfold readSectionBody at h
  split at h
  · obtain ⟨clauses, hclauses, h⟩ := (bind_eq_ok_iff _ _ _).1 h
    obtain rfl := Except.ok.inj h
    exact ⟨hclauses, rfl, rfl⟩
  · cases h

/-- The clauses of a section are read behind its first four bytes, which say how it is to be read. -/
theorem readSection_eq_ok {s : Section} (h : readSection bytes = .ok s) :
    4 ≤ bytes.length ∧
      readClauses (sectionWidths bytes) ((sectionSize bytes - 4) / (sectionWidths bytes).total)
        (bytes.drop 4) = .ok s.clauses ∧
      s.size = sectionSize bytes ∧ s.more = isFollowed bytes := by
  unfold readSection at h
  split at h
  · cases h
  · next kind rest =>
    split at h
    · cases h
    · split at h
      · next hkind =>
        have hfat : isFatSection (kind :: rest) = true := bne_iff_ne.2 hkind
        obtain ⟨⟨size, rest'⟩, hsize, h⟩ := (bind_eq_ok_iff _ _ _).1 h
        obtain ⟨hle, rfl, rfl⟩ := readWord_eq_ok_iff.1 hsize
        unfold sectionWidths sectionSize
        rw [hfat]
        exact ⟨Nat.succ_le_succ hle, readSectionBody_eq_ok h⟩
      · next hkind =>
        have hsmall : isFatSection (kind :: rest) = false := by
          unfold isFatSection
          simpa using hkind
        obtain ⟨⟨size, rest'⟩, hsize, h⟩ := (bind_eq_ok_iff _ _ _).1 h
        obtain ⟨⟨padding, rest''⟩, hpadding, h⟩ := (bind_eq_ok_iff _ _ _).1 h
        obtain ⟨hle, rfl, rfl⟩ := readWord_eq_ok_iff.1 hsize
        obtain ⟨hle', -, rfl⟩ := readWord_eq_ok_iff.1 hpadding
        rw [List.length_drop] at hle'
        rw [List.drop_drop] at h
        unfold sectionWidths sectionSize
        rw [hsmall]
        exact ⟨Nat.succ_le_succ (by omega), readSectionBody_eq_ok h⟩

/-- The first section comes first, and the others behind it if it says so. -/
theorem readSections_eq_bind (bytes : List UInt8) :
    readSections bytes = readSection bytes >>= fun s =>
      if s.more then (readSections (bytes.drop (align4 s.size))).map (s.clauses ++ ·)
      else .ok s.clauses := by
  rw [readSections]
  split
  · next fault hfault =>
    rw [hfault]
    rfl
  · next s hs =>
    rw [hs]
    show _ = if s.more then _ else _
    split
    · cases readSections (bytes.drop (align4 s.size)) <;> rfl
    · rfl

/-- The first section is the last one, or the others stand behind it. -/
theorem readSections_cases {clauses : List Clause} (h : readSections bytes = .ok clauses) :
    ∃ s, readSection bytes = .ok s ∧
      (s.more = false ∧ clauses = s.clauses ∨
        s.more = true ∧ ∃ later, readSections (bytes.drop (align4 s.size)) = .ok later ∧
          clauses = s.clauses ++ later) := by
  rw [readSections_eq_bind, bind_eq_ok_iff] at h
  obtain ⟨s, hs, h⟩ := h
  refine ⟨s, hs, ?_⟩
  split at h
  · next hmore =>
    obtain ⟨later, hlater, h⟩ := (map_eq_ok_iff _ _ _).1 h
    exact Or.inr ⟨hmore, later, hlater, h.symm⟩
  · next hlast => exact Or.inl ⟨Bool.eq_false_iff.2 hlast, (Except.ok.inj h).symm⟩

theorem sectionsHold_of_readSections {clauses : List Clause}
    (h : readSections bytes = .ok clauses) : SectionsHold bytes clauses := by
  -- along the sections: the bytes behind one of them are fewer
  induction hlength : bytes.length using Nat.strongRecOn generalizing bytes clauses with
  | ind length ih =>
    obtain ⟨s, hs, hcases⟩ := readSections_cases h
    obtain ⟨hlong, hread, hsize, hmore⟩ := readSection_eq_ok hs
    have hclauses : s.clauses = sectionClauses bytes := readClauses_eq_ok hread
    rcases hcases with ⟨hlast, rfl⟩ | ⟨hfollowed, later, hlater, rfl⟩
    · rw [hclauses]
      exact .last (hmore.symm.trans hlast)
    · have hfour := s.four_le
      have hle := le_align4 s.size
      have hshorter : (bytes.drop (align4 s.size)).length < length := by
        rw [List.length_drop]
        omega
      have hrest := ih _ hshorter hlater rfl
      rw [hsize] at hrest
      rw [hclauses]
      exact .followed (hmore.symm.trans hfollowed) hrest

end Sections

/-! ## Handlers -/

/-- The handler of a clause: the flags give its kind, and its blocks reach from the instruction at an
offset to the one that starts so many bytes later.  Only a filter has a start of its own. -/
structure Clause.Describes (b : Body) (size : Nat) (c : Clause) (h : Handler) : Prop where
  kind : handlerKind? c.flags = some h.kind
  tryStart : b.Locates size c.tryOffset h.tryStart
  tryEnd : b.Locates size (c.tryOffset + c.tryLength : Nat) h.tryEnd
  handlerStart : b.Locates size c.handlerOffset h.handlerStart
  handlerEnd : b.Locates size (c.handlerOffset + c.handlerLength : Nat) h.handlerEnd
  filterStart : h.kind = .filter → b.Locates size c.detail h.filterStart
  noFilter : h.kind ≠ .filter → h.filterStart = none

end Binary

/-- The places that a handler names. -/
def Handler.places (h : Handler) : List (Option InstructionId) :=
  [h.tryStart, h.tryEnd, h.handlerStart, h.handlerEnd, h.filterStart]

namespace Binary

theorem Clause.Describes.lt_size {b : Body} {size : Nat} {c : Clause} {h : Handler}
    (hd : c.Describes b size h) {id : InstructionId} (hid : some id ∈ h.places) : id < b.size := by
  simp only [Handler.places, List.mem_cons, List.not_mem_nil, or_false] at hid
  rcases hid with hid | hid | hid | hid | hid
  · exact hd.tryStart.lt_size hid.symm
  · exact hd.tryEnd.lt_size hid.symm
  · exact hd.handlerStart.lt_size hid.symm
  · exact hd.handlerEnd.lt_size hid.symm
  · by_cases hkind : h.kind = .filter
    · exact (hd.filterStart hkind).lt_size hid.symm
    · rw [hd.noFilter hkind] at hid
      cases hid

theorem describes_of_toHandler {tokens : TokenTable} {code : List UInt8}
    {starts : List CodedInstruction} (h : readCode tokens code = .ok starts)
    (hsize : code.length < 2 ^ 32) (name : String) (handlers : List Handler) {c : Clause}
    {handler : Handler} (hhandler : c.toHandler tokens starts = .ok handler) :
    c.Describes (Body.mk name (link starts) handlers) code.length handler := by
  unfold Clause.toHandler at hhandler
  split at hhandler
  · cases hhandler
  · next kind hkind =>
    obtain rfl := Except.ok.inj hhandler
    have hstart := locates_findStart? h hsize name handlers
    have hend := locates_endOf? h hsize name handlers
    refine ⟨hkind, hstart _, hend _ _, hstart _, hend _ _, fun hfilter => ?_, fun hother => ?_⟩
    · rw [if_pos hfilter]
      exact hstart _
    · exact if_neg hother

/-- The clauses stand behind the code, at a multiple of four bytes. -/
theorem readHandlers_eq_ok {tokens : TokenTable} {header : Header} {starts : List CodedInstruction}
    {bytes : List UInt8} {handlers : List Handler}
    (h : readHandlers tokens header starts bytes = .ok handlers) :
    ∃ clauses, (if header.moreSections then
        SectionsHold (bytes.drop (align4 (header.codeStart + header.codeSize))) clauses
      else clauses = []) ∧
      List.Forall₂ (fun c handler => Clause.toHandler tokens starts c = .ok handler) clauses
        handlers := by
  unfold readHandlers at h
  split at h
  · next hmore =>
    obtain ⟨sections, hsections, h⟩ := (bind_eq_ok_iff _ _ _).1 h
    obtain ⟨-, rfl⟩ := slice_eq_ok_iff.1 hsections
    obtain ⟨clauses, hclauses, h⟩ := (bind_eq_ok_iff _ _ _).1 h
    rw [← List.length_drop, List.take_length] at hclauses
    refine ⟨clauses, ?_, (mapM_eq_ok_iff _ _ _).1 h⟩
    rw [if_pos hmore]
    exact sectionsHold_of_readSections hclauses
  · next hlast =>
    obtain rfl := Except.ok.inj h
    exact ⟨[], by rw [if_neg hlast], .nil⟩

/-- **Positions are exact.**  In every body that is read from bytes, a branch or an entry of a switch
goes to the instruction that starts as far behind the end of the branch as its bytes say.  The places
of the handlers, which follow the clauses of the sections in their order, are the instructions at the
offsets of the clause and, for an end, at the sum of offset and length, however large it is.  Where no
instruction starts there is no target, and every target is an instruction of the body. -/
theorem read_positions_exact (tokens : TokenTable) (name : String) (bytes : List UInt8) (body : Body)
    (h : read tokens name bytes = .ok body) :
    ∃ header code clauses, readHeader bytes = .ok header ∧
      slice header.codeStart header.codeSize bytes = .ok code ∧
      (if header.moreSections then
        SectionsHold (bytes.drop (align4 (header.codeStart + header.codeSize))) clauses
      else clauses = []) ∧
      (∀ id i, body.get? id = some i →
        List.Forall₂ (fun d target => body.Locates header.codeSize
            ((i.offset.toNat + i.width : Nat) + d) target)
          (displacements i.code.shape (code.drop (i.offset.toNat + i.code.size)))
          i.operand.targets) ∧
      List.Forall₂ (Clause.Describes body header.codeSize) clauses body.handlers ∧
      (∀ i ∈ body.instructions, ∀ id, some id ∈ i.operand.targets → id < body.size) ∧
      ∀ handler ∈ body.handlers, ∀ id, some id ∈ handler.places → id < body.size := by
  obtain ⟨header, code, starts, hheader, hcode, hlength, hsize, hstarts, hhandlers, hbody⟩ :=
    exists_parts_of_read h
  obtain ⟨clauses, hclauses, hmade⟩ := readHandlers_eq_ok hhandlers
  rw [← hlength] at hsize
  have htargets : ∀ id i, body.get? id = some i →
      List.Forall₂ (fun d target => body.Locates header.codeSize
          ((i.offset.toNat + i.width : Nat) + d) target)
        (displacements i.code.shape (code.drop (i.offset.toNat + i.code.size)))
        i.operand.targets := by
    rw [hbody, ← hlength]
    intro id i hget
    exact targets_located hstarts hsize name body.handlers hget
  have hdescribed : List.Forall₂ (Clause.Describes body header.codeSize) clauses body.handlers := by
    refine hmade.imp fun c handler hhandler => ?_
    rw [hbody, ← hlength]
    exact describes_of_toHandler hstarts hsize name body.handlers hhandler
  refine ⟨header, code, clauses, hheader, hcode, hclauses, htargets, hdescribed, ?_, ?_⟩
  · intro i hi id hid
    obtain ⟨place, hget⟩ := List.mem_iff_getElem?.1 hi
    obtain ⟨d, -, hlocates⟩ := exists_mem_of_forall₂ (htargets place i hget) hid
    exact hlocates.lt_size rfl
  · intro handler hhandler id hid
    obtain ⟨c, -, hdescribes⟩ := exists_mem_of_forall₂ hdescribed hhandler
    exact hdescribes.lt_size hid

/-- A branch into itself, and a handler with a filter whose block ends past 32 bits. -/
def overlongHandler : List UInt8 :=
  [0x0B, 0x30, 0x08, 0x00, 0x04, 0x00, 0x00, 0x00, 0x00, 0x00, 0x00, 0x00,
    0x2B, 0xFF, 0x00, 0x2A,
    0x41, 0x1C, 0x00, 0x00, 0x01, 0x00, 0x00, 0x00, 0x00, 0x00, 0x00, 0x00, 0x02, 0x00, 0x00, 0x00,
    0x03, 0x00, 0x00, 0x00, 0xFF, 0xFF, 0xFF, 0xFF, 0x02, 0x00, 0x00, 0x00]

/-- The branch goes to offset 1, which lies within it, and the handler ends at `3 + (2 ^ 32 - 1)`. -/
theorem overlongHandler_located : ∃ body, read noTokens "M" overlongHandler = .ok body ∧
    body.Locates 4 1 none ∧
    ∃ handler ∈ body.handlers, handler.filterStart = some 1 ∧ handler.handlerEnd = none ∧
      ∃ c : Clause, c.Describes body 4 handler := by
  have hread : read noTokens "M" overlongHandler = .ok ⟨"M",
      [{ code := .brS, operand := .target none, offset := 0 }, { code := .nop, offset := 2 },
        { code := .ret, offset := 3 }],
      [{ kind := .filter, tryStart := some 0, tryEnd := some 1, handlerStart := some 2,
         handlerEnd := none, filterStart := some 1 }]⟩ := by
    decide +kernel
  have hheader' : readHeader overlongHandler = .ok ⟨12, 4, true⟩ := by decide +kernel
  obtain ⟨header, code, clauses, hheader, hcode, -, htargets, hdescribed, -, -⟩ :=
    read_positions_exact _ _ _ _ hread
  obtain rfl := Except.ok.inj (hheader'.symm.trans hheader)
  obtain rfl : [0x2B, 0xFF, 0x00, 0x2A] = code := Except.ok.inj hcode
  refine ⟨_, hread, ?_, _, List.mem_cons_self, rfl, rfl, ?_⟩
  · have htarget := htargets 0 _ rfl
    have hdistance : displacements .shortTarget [0xFF, 0x00, 0x2A] = [-1] := by decide +kernel
    change List.Forall₂ _ (displacements .shortTarget [0xFF, 0x00, 0x2A]) [none] at htarget
    rw [hdistance] at htarget
    exact (List.forall₂_cons.1 htarget).1
  · obtain ⟨c, later, hc, -, -⟩ := List.forall₂_cons_right_iff.1 hdescribed
    exact ⟨c, hc⟩

end Binary

end PushGuard
