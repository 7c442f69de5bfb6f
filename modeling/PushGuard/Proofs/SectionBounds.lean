import PushGuard.Proofs.Positions
import PushGuard.Proofs.Readers

/-!
# Where sections and clauses lie

The size of a section is taken from the bytes, and says where the next one starts.  Whatever bytes
there are, the loop over the sections ends: `Visits` is the loop as a relation, with the starts of the
sections that it comes to, and it has a run from every place (`exists_visits`).  Each start lies
behind the section before it, by four bytes at least (`Visits.apart`).

Of the clauses that are read, each stands between the ends of its section and of the bytes
(`ClauseSite.Holds`), and no two of them overlap.  So there cannot be many of them
(`length_le_of_apart`).
-/

namespace PushGuard.Binary

variable {bytes rest : List UInt8} {start : Nat}

/-! ## The loop -/

/-- The loop over the sections, from the one at `start`: the sections that it comes to, and what it
ends with. -/
inductive Visits (bytes : List UInt8) :
    (start : Nat) → (starts : List Nat) → Except BinaryFault (List Clause) → Prop
  | fails {start : Nat} {fault : BinaryFault}
    (h : readSection (bytes.drop start) = .error fault) : Visits bytes start [start] (.error fault)
  | ends {start : Nat} {s : Section} (h : readSection (bytes.drop start) = .ok s)
    (hlast : s.more = false) : Visits bytes start [start] (.ok s.clauses)
  | moves {start : Nat} {s : Section} {starts : List Nat} {result : Except BinaryFault (List Clause)}
    (h : readSection (bytes.drop start) = .ok s) (hmore : s.more = true)
    (hnext : Visits bytes (start + align4 s.size) starts result) :
    Visits bytes start (start :: starts) (result.map (s.clauses ++ ·))

/-- A section has its first four bytes, and says that it is no smaller. -/
theorem bounds_of_readSection {s : Section} (h : readSection (bytes.drop start) = .ok s) :
    start + 4 ≤ bytes.length ∧ 4 ≤ sectionSize (bytes.drop start) ∧
      sectionSize (bytes.drop start) ≤ align4 s.size := by
  obtain ⟨hlong, -, hsize, -⟩ := readSection_eq_ok h
  have hfour := s.four_le
  have hle := le_align4 s.size
  rw [List.length_drop] at hlong
  omega

/-- The loop ends, whatever the bytes are, and what it ends with is what is read. -/
theorem exists_visits (bytes : List UInt8) (start : Nat) :
    ∃ starts, Visits bytes start starts (readSections (bytes.drop start)) := by
  induction hleft : bytes.length - start using Nat.strongRecOn generalizing start with
  | ind left ih =>
    rw [readSections_eq_bind]
    cases hs : readSection (bytes.drop start) with
    | error fault => exact ⟨[start], .fails hs⟩
    | ok s =>
      show ∃ starts, Visits bytes start starts (if s.more then _ else _)
      split
      · next hmore =>
        obtain ⟨hlong, hfour, hsize⟩ := bounds_of_readSection hs
        obtain ⟨starts, hstarts⟩ := ih (bytes.length - (start + align4 s.size)) (by omega)
          (start + align4 s.size) rfl
        rw [List.drop_drop]
        exact ⟨start :: starts, .moves hs hmore hstarts⟩
      · next hlast => exact ⟨[start], .ends hs (Bool.eq_false_iff.2 hlast)⟩

namespace Visits

variable {starts : List Nat} {result : Except BinaryFault (List Clause)}

theorem start_le (h : Visits bytes start starts result) : ∀ later ∈ starts, start ≤ later := by
  induction h with
  | fails | ends =>
    intro later hlater
    exact Nat.le_of_eq (List.mem_singleton.1 hlater).symm
  | moves _ _ _ ih =>
    intro later hlater
    rcases List.mem_cons.1 hlater with rfl | hlater
    · exact Nat.le_refl _
    · exact Nat.le_of_add_right_le (ih later hlater)

/-- A section starts behind those that come before it. -/
theorem apart (h : Visits bytes start starts result) :
    starts.Pairwise fun a b => a + 4 ≤ b ∧ a + sectionSize (bytes.drop a) ≤ b := by
  induction h with
  | fails | ends => exact List.pairwise_singleton _ _
  | moves hs _ hnext ih =>
    obtain ⟨-, hfour, hsize⟩ := bounds_of_readSection hs
    refine List.pairwise_cons.2 ⟨fun later hlater => ?_, ih⟩
    have hle := hnext.start_le later hlater
    omega

/-- Every turn but the last takes four bytes. -/
theorem turns_le (h : Visits bytes start starts result) :
    4 * starts.length + min start bytes.length ≤ bytes.length + 4 := by
  induction h with
  | fails | ends =>
    rw [List.length_singleton]
    omega
  | moves hs _ _ ih =>
    obtain ⟨hlong, hfour, hsize⟩ := bounds_of_readSection hs
    rw [List.length_cons]
    omega

end Visits

/-! ## Clauses -/

/-- Where a clause stands. -/
structure ClauseSite where
  /-- The start of its section. -/
  start : Nat
  /-- Its first byte. -/
  place : Nat

namespace ClauseSite

/-- The widths of its fields, as its section has them. -/
def widths (bytes : List UInt8) (site : ClauseSite) : ClauseWidths :=
  sectionWidths (bytes.drop site.start)

/-- The end of the clause. -/
def stop (bytes : List UInt8) (site : ClauseSite) : Nat := site.place + (site.widths bytes).total

/-- The clause was read from here: behind the first bytes of its section, and in front of the end that
the section gives itself and of the end of the bytes. -/
structure Holds (bytes : List UInt8) (site : ClauseSite) (c : Clause) : Prop where
  behind_header : site.start + 4 ≤ site.place
  within_section : site.stop bytes ≤ site.start + sectionSize (bytes.drop site.start)
  within_bytes : site.stop bytes ≤ bytes.length
  read : readClause (site.widths bytes) ((bytes.drop site.place).take (site.widths bytes).total) =
    .ok (c, [])

theorem place_add_le_stop (bytes : List UInt8) (site : ClauseSite) :
    site.place + 12 ≤ site.stop bytes := by
  have htotal : 12 ≤ (site.widths bytes).total := by
    unfold widths sectionWidths
    split <;> decide
  unfold stop
  omega

end ClauseSite

theorem readsFront_readClause (w : ClauseWidths) : ReadsFront (readClause w) :=
  (readsFront_readWord w.flags).bind fun _ => (readsFront_readWord w.offset).bind fun _ =>
    (readsFront_readWord w.length).bind fun _ => (readsFront_readWord w.offset).bind fun _ =>
      (readsFront_readWord w.length).bind fun _ => (readsFront_readWord w.detail).bind fun _ =>
        readsFront_pure _

/-- A clause is read from as many bytes as it is wide. -/
theorem readClause_take {w : ClauseWidths} {c : Clause} (h : readClause w bytes = .ok (c, rest)) :
    readClause w (bytes.take w.total) = .ok (c, []) := by
  obtain ⟨hle, -, hrest⟩ := readClause_eq_ok h
  obtain ⟨width, htakes⟩ := readsFront_readClause w bytes c rest h
  have hwidth := htakes.width_eq hle hrest
  have hread := htakes.of_le w.total (Nat.le_of_eq hwidth)
  rwa [hwidth, Nat.sub_self, List.take_zero] at hread

/-- The clauses stand one behind the other. -/
theorem forall₂_of_readClauses {w : ClauseWidths} {count : Nat} {clauses : List Clause}
    (h : readClauses w count bytes = .ok clauses) :
    List.Forall₂ (fun m c => m < count ∧ w.total * m + w.total ≤ bytes.length ∧
        readClause w ((bytes.drop (w.total * m)).take w.total) = .ok (c, []))
      (List.range count) clauses := by
  induction count generalizing bytes clauses with
  | zero =>
    obtain rfl := Except.ok.inj h
    exact .nil
  | succ count ih =>
    rw [readClauses, bind_eq_ok_iff] at h
    obtain ⟨⟨c, rest⟩, hc, h⟩ := h
    obtain ⟨later, hlater, h⟩ := (bind_eq_ok_iff _ _ _).1 h
    obtain rfl := Except.ok.inj h
    obtain ⟨hle, -, rfl⟩ := readClause_eq_ok hc
    rw [List.range_succ_eq_map]
    refine .cons ⟨Nat.succ_pos count, by omega, readClause_take hc⟩ ?_
    rw [List.forall₂_map_left_iff]
    refine (ih hlater).imp fun m c' hc' => ?_
    obtain ⟨hm, hwithin, hread⟩ := hc'
    rw [List.length_drop] at hwithin
    rw [List.drop_drop] at hread
    rw [Nat.mul_succ, Nat.add_comm (w.total * m)]
    exact ⟨Nat.succ_lt_succ hm, by omega, hread⟩

/-- The places of the clauses of a section: as many as fit behind its first four bytes. -/
def sectionSites (bytes : List UInt8) (start : Nat) : List ClauseSite :=
  let w := sectionWidths (bytes.drop start)
  (List.range ((sectionSize (bytes.drop start) - 4) / w.total)).map fun m =>
    ⟨start, start + 4 + w.total * m⟩

theorem holds_sectionSites {s : Section} (h : readSection (bytes.drop start) = .ok s) :
    List.Forall₂ (ClauseSite.Holds bytes) (sectionSites bytes start) s.clauses := by
  obtain ⟨-, hclauses, -, -⟩ := readSection_eq_ok h
  obtain ⟨hlong, hfour, -⟩ := bounds_of_readSection h
  unfold sectionSites
  rw [List.forall₂_map_left_iff]
  refine (forall₂_of_readClauses hclauses).imp fun m c hc => ?_
  obtain ⟨hm, hwithin, hread⟩ := hc
  rw [List.drop_drop, List.length_drop] at hwithin
  rw [List.drop_drop, List.drop_drop, ← Nat.add_assoc] at hread
  refine ⟨Nat.le_add_right _ _, ?_, ?_, hread⟩
  · have hfits := Nat.mul_le_mul_left (sectionWidths (bytes.drop start)).total hm
    have hcount := Nat.mul_div_le (sectionSize (bytes.drop start) - 4)
      (sectionWidths (bytes.drop start)).total
    rw [Nat.mul_succ] at hfits
    show start + 4 + _ + (sectionWidths (bytes.drop start)).total ≤
      start + sectionSize (bytes.drop start)
    omega
  · show start + 4 + _ + (sectionWidths (bytes.drop start)).total ≤ _
    omega

theorem apart_sectionSites (bytes : List UInt8) (start : Nat) :
    (sectionSites bytes start).Pairwise fun a b => a.stop bytes ≤ b.place := by
  unfold sectionSites
  rw [List.pairwise_map]
  refine List.pairwise_lt_range.imp fun hlt => ?_
  have hnext := Nat.mul_le_mul_left (sectionWidths (bytes.drop start)).total (Nat.succ_le_of_lt hlt)
  rw [Nat.mul_succ] at hnext
  show start + 4 + _ + (sectionWidths (bytes.drop start)).total ≤ start + 4 + _
  omega

theorem start_of_mem_sectionSites {site : ClauseSite} (h : site ∈ sectionSites bytes start) :
    site.start = start := by
  unfold sectionSites at h
  obtain ⟨m, -, rfl⟩ := List.mem_map.1 h
  rfl

/-- The clauses that the loop ends with stand in the sections that it has come to. -/
theorem Visits.exists_sites {starts : List Nat} {result : Except BinaryFault (List Clause)}
    (h : Visits bytes start starts result) {clauses : List Clause} (hok : result = .ok clauses) :
    ∃ sites, List.Forall₂ (ClauseSite.Holds bytes) sites clauses ∧
      (∀ site ∈ sites, site.start ∈ starts) ∧
      sites.Pairwise fun a b => a.stop bytes ≤ b.place := by
  induction h generalizing clauses with
  | fails => cases hok
  | @ends start s hs =>
    obtain rfl := Except.ok.inj hok
    refine ⟨sectionSites bytes start, holds_sectionSites hs, fun site hsite => ?_,
      apart_sectionSites bytes start⟩
    rw [start_of_mem_sectionSites hsite]
    exact List.mem_singleton_self start
  | @moves start s starts result hs _ hnext ih =>
    obtain ⟨later, hlater, rfl⟩ := (map_eq_ok_iff _ _ _).1 hok
    obtain ⟨sites, hsites, hstarts, hapart⟩ := ih hlater
    obtain ⟨-, -, hsize⟩ := bounds_of_readSection hs
    refine ⟨sectionSites bytes start ++ sites, List.rel_append (holds_sectionSites hs) hsites,
      fun site hsite => ?_, List.pairwise_append.2 ⟨apart_sectionSites bytes start, hapart, ?_⟩⟩
    · rcases List.mem_append.1 hsite with hfirst | hrest
      · rw [start_of_mem_sectionSites hfirst]
        exact List.mem_cons_self
      · exact List.mem_cons_of_mem start (hstarts site hrest)
    · intro first hfirst site hsite
      obtain ⟨c, -, hc⟩ := exists_mem_of_forall₂ (holds_sectionSites hs).flip hfirst
      obtain ⟨c', -, hc'⟩ := exists_mem_of_forall₂ hsites.flip hsite
      have hend := hc.within_section
      rw [start_of_mem_sectionSites hfirst] at hend
      calc first.stop bytes
          ≤ start + sectionSize (bytes.drop start) := hend
        _ ≤ start + align4 s.size := Nat.add_le_add_left hsize start
        _ ≤ site.start := hnext.start_le _ (hstarts site hsite)
        _ ≤ site.place := Nat.le_of_add_right_le hc'.behind_header

/-- Clauses that do not overlap, each of at least twelve bytes. -/
theorem length_le_of_apart {sites : List ClauseSite} {low : Nat}
    (hapart : sites.Pairwise fun a b => a.stop bytes ≤ b.place)
    (hlow : ∀ site ∈ sites, low ≤ site.place)
    (hwithin : ∀ site ∈ sites, site.stop bytes ≤ bytes.length) (hle : low ≤ bytes.length) :
    low + 12 * sites.length ≤ bytes.length := by
  induction sites generalizing low with
  | nil => exact hle
  | cons site sites ih =>
    obtain ⟨hbehind, hrest⟩ := List.pairwise_cons.1 hapart
    have hfirst := hlow site List.mem_cons_self
    have hwide := site.place_add_le_stop bytes
    have hcount := ih hrest hbehind (fun later hlater => hwithin later (List.mem_cons_of_mem _ hlater))
      (hwithin site List.mem_cons_self)
    rw [List.length_cons]
    omega

/-- **Sections are read within bounds.**  Whatever bytes there are, the loop over the sections ends:
each turn is the last one, or moves the start by at least four bytes and behind the section.  Every
clause that is returned was read from bytes of its own, within the size that its section gives and
within the bytes there are, so there is at most one clause for every twelve bytes. -/
theorem readSections_within_bounds (bytes : List UInt8) :
    ∃ starts, Visits bytes 0 starts (readSections bytes) ∧
      (starts.Pairwise fun a b => a + 4 ≤ b ∧ a + sectionSize (bytes.drop a) ≤ b) ∧
      starts.length ≤ bytes.length / 4 + 1 ∧
      ∀ clauses, readSections bytes = .ok clauses →
        (∃ sites, List.Forall₂ (ClauseSite.Holds bytes) sites clauses ∧
          (∀ site ∈ sites, site.start ∈ starts) ∧
          sites.Pairwise fun a b => a.stop bytes ≤ b.place) ∧
        clauses.length ≤ bytes.length / 12 := by
  obtain ⟨starts, hvisits⟩ := exists_visits bytes 0
  have hturns := hvisits.turns_le
  refine ⟨starts, hvisits, hvisits.apart, by omega, fun clauses hclauses => ?_⟩
  obtain ⟨sites, hsites, hstarts, hapart⟩ := hvisits.exists_sites hclauses
  have hwithin : ∀ site ∈ sites, site.stop bytes ≤ bytes.length := by
    intro site hsite
    obtain ⟨c, -, hc⟩ := exists_mem_of_forall₂ hsites.flip hsite
    exact hc.within_bytes
  have hcount := length_le_of_apart hapart (fun site _ => Nat.zero_le site.place) hwithin
    (Nat.zero_le _)
  have hlength := hsites.length_eq
  exact ⟨⟨sites, hsites, hstarts, hapart⟩, by omega⟩

end PushGuard.Binary
