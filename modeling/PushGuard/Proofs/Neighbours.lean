import Mathlib.Order.Bounds.Basic
import PushGuard.Body

/-!
# Neighbours without the `nop`s

Going on to the next instruction and going back to the one before leave out `nop`s by the same search: a
step is repeated as long as it comes to a `nop` (`Body.SkipsNops`).  The two searches differ in the order
in which the step goes through the body (`Body.StepsAlong`), and in nothing else that matters for what they
find: the nearest instruction in that order that is not a `nop` (`Body.SkipsNops.eq_some_iff`).  Since one
order is the other one read backwards, each search undoes the other.
-/

namespace PushGuard

namespace Body

/-- There is an instruction at this place, and it is a `nop`. -/
def NopAt (b : Body) (id : Nat) : Prop := ∃ i, b.get? id = some i ∧ i.isNop = true

/-- There is an instruction at this place, and it is not a `nop`. -/
def WorksAt (b : Body) (id : Nat) : Prop := ∃ i, b.get? id = some i ∧ i.isNop = false

instance (b : Body) (id : Nat) : Decidable (b.NopAt id) :=
  decidable_of_iff ((b.get? id).any Instruction.isNop = true) (Option.any_eq_true ..)

instance (b : Body) (id : Nat) : Decidable (b.WorksAt id) :=
  decidable_of_iff ((b.get? id).any fun i => !i.isNop) <| by
    rw [Option.any_eq_true]
    simp [WorksAt]

theorem WorksAt.lt_size {b : Body} {id : Nat} (h : b.WorksAt id) : id < b.size := by
  obtain ⟨i, hget, -⟩ := h
  exact b.lt_size_of_get? id i hget

theorem nopAt_iff {b : Body} {id : Nat} {i : Instruction} (hget : b.get? id = some i) :
    b.NopAt id ↔ i.isNop = true := by
  unfold NopAt
  simp [hget]

theorem worksAt_iff_not_nopAt {b : Body} {id : Nat} (hid : id < b.size) :
    b.WorksAt id ↔ ¬ b.NopAt id := by
  obtain ⟨i, hget⟩ := b.get?_eq_some_of_lt id hid
  rw [nopAt_iff hget, WorksAt]
  simp [hget]

/-! ## A search in either direction -/

/-- The search `skip` repeats `step` as long as this comes to a `nop`, and comes to an end. -/
structure SkipsNops (b : Body) (step skip : Nat → Option Nat) : Prop where
  turn : ∀ id, skip id = (step id).bind fun next => if b.NopAt next then skip next else some next
  ends : WellFounded fun next id => step id = some next

/-- From a place of the body, `step` goes to the one that comes next in the order `before`, if any. -/
structure StepsAlong (b : Body) (before : Nat → Nat → Prop) (step : Nat → Option Nat) : Prop where
  next : ∀ id next, step id = some next →
    next < b.size ∧ before id next ∧ ∀ k, before id k → k = next ∨ before next k
  last : ∀ id, id < b.size → step id = none → ∀ k, k < b.size → ¬ before id k

/-- The instruction at `j` is the nearest behind `id`, in the order `before`, that is not a `nop`. -/
structure Nearest (b : Body) (before : Nat → Nat → Prop) (id j : Nat) : Prop where
  works : b.WorksAt j
  behind : before id j
  nearest : ∀ k, b.WorksAt k → before id k → k = j ∨ before j k

namespace Nearest

variable {b : Body} {before : Nat → Nat → Prop} [IsStrictTotalOrder Nat before] {id j : Nat}

theorem unique {j' : Nat} (h : b.Nearest before id j) (h' : b.Nearest before id j') : j = j' := by
  rcases h.nearest j' h'.works h'.behind with heq | hlt
  · exact heq.symm
  · rcases h'.nearest j h.works h.behind with heq | hgt
    · exact heq
    · exact absurd hgt (asymm hlt)

/-- Of two instructions that are not `nop`s, each is the nearest to the other, or none is. -/
theorem reversed (h : b.Nearest before id j) (hid : b.WorksAt id) :
    b.Nearest (fun x y => before y x) j id where
  works := hid
  behind := h.behind
  nearest k hk hkj := by
    rcases trichotomous_of before k id with hlt | heq | hgt
    · exact Or.inr hlt
    · exact Or.inl heq
    · rcases h.nearest k hk hgt with rfl | hjk
      · exact absurd hkj (irrefl k)
      · exact absurd hkj (asymm hjk)

end Nearest

namespace SkipsNops

variable {b : Body} {before : Nat → Nat → Prop} [IsStrictTotalOrder Nat before]
  {step skip : Nat → Option Nat} {id : Nat}

/-- The search finds the nearest, or there is nothing to find. -/
theorem none_or_nearest (hskip : b.SkipsNops step skip) (hstep : b.StepsAlong before step)
    (hid : id < b.size) :
    (skip id = none ∧ ∀ k, b.WorksAt k → ¬ before id k) ∨
      ∃ j, skip id = some j ∧ b.Nearest before id j := by
  -- along the steps, since a turn that comes to a `nop` goes on from there
  induction id using hskip.ends.induction with
  | h id ih =>
    have hturn := hskip.turn id
    cases hnext : step id with
    | none =>
      rw [hnext] at hturn
      exact Or.inl ⟨hturn, fun k hk => hstep.last id hid hnext k hk.lt_size⟩
    | some next =>
      rw [hnext, Option.bind_some] at hturn
      obtain ⟨hlt, hbefore, hfollow⟩ := hstep.next id next hnext
      by_cases hnop : b.NopAt next
      · rw [if_pos hnop] at hturn
        have hbehind : ∀ k, b.WorksAt k → before id k → before next k := by
          intro k hk hidk
          rcases hfollow k hidk with rfl | h
          · exact absurd hnop ((worksAt_iff_not_nopAt hlt).1 hk)
          · exact h
        rw [hturn]
        rcases ih next hnext hlt with ⟨hnone, hall⟩ | ⟨j, hj, hnear⟩
        · exact Or.inl ⟨hnone, fun k hk hidk => hall k hk (hbehind k hk hidk)⟩
        · refine Or.inr ⟨j, hj, hnear.works, trans_of before hbefore hnear.behind, fun k hk hidk => ?_⟩
          exact hnear.nearest k hk (hbehind k hk hidk)
      · rw [if_neg hnop] at hturn
        have hworks := (worksAt_iff_not_nopAt hlt).2 hnop
        exact Or.inr ⟨next, hturn, hworks, hbefore, fun k _ => hfollow k⟩

theorem eq_some_iff (hskip : b.SkipsNops step skip) (hstep : b.StepsAlong before step)
    (hid : id < b.size) (j : Nat) : skip id = some j ↔ b.Nearest before id j := by
  rcases hskip.none_or_nearest hstep hid with ⟨hnone, hall⟩ | ⟨j', hj', hnear⟩
  · rw [hnone]
    constructor
    · intro h
      cases h
    · intro h
      exact absurd h.behind (hall j h.works)
  · rw [hj', Option.some_inj]
    constructor
    · rintro rfl
      exact hnear
    · intro h
      exact hnear.unique h

theorem eq_none_iff (hskip : b.SkipsNops step skip) (hstep : b.StepsAlong before step)
    (hid : id < b.size) : skip id = none ↔ ∀ k, b.WorksAt k → ¬ before id k := by
  rcases hskip.none_or_nearest hstep hid with ⟨hnone, hall⟩ | ⟨j, hj, hnear⟩
  · exact ⟨fun _ => hall, fun _ => hnone⟩
  · rw [hj]
    constructor
    · intro h
      cases h
    · intro h
      exact absurd hnear.behind (h j hnear.works)

end SkipsNops

/-! ## The two directions -/

theorem next?_eq_some_iff (b : Body) (id next : Nat) :
    b.next? id = some next ↔ next = id + 1 ∧ next < b.size := by
  unfold next? contains
  by_cases h : id + 1 < b.size
  · rw [if_pos (decide_eq_true h), Option.some_inj]
    constructor
    · rintro rfl
      exact ⟨rfl, h⟩
    · rintro ⟨rfl, -⟩
      rfl
  · rw [if_neg (by simpa using h)]
    constructor
    · intro hnone
      cases hnone
    · rintro ⟨rfl, hlt⟩
      exact absurd hlt h

theorem size_le_of_next? {b : Body} {id : Nat} (h : b.next? id = none) : b.size ≤ id + 1 := by
  by_contra hlt
  rw [(b.next?_eq_some_iff id (id + 1)).2 ⟨rfl, Nat.lt_of_not_le hlt⟩] at h
  cases h

theorem previous?_eq_some_iff (b : Body) (id before : Nat) :
    b.previous? id = some before ↔ id = before + 1 ∧ id < b.size := by
  unfold previous? contains
  by_cases h : id < b.size
  · rw [if_pos (decide_eq_true h)]
    cases id with
    | zero => simp
    | succ last => simp [h]
  · simp [h]

theorem eq_zero_of_previous? {b : Body} {id : Nat} (h : b.previous? id = none) (hid : id < b.size) :
    id = 0 := by
  cases id with
  | zero => rfl
  | succ last =>
    rw [(b.previous?_eq_some_iff (last + 1) last).2 ⟨rfl, hid⟩] at h
    cases h

theorem stepsAlong_next? (b : Body) : b.StepsAlong (· < ·) b.next? where
  next id next h := by
    obtain ⟨rfl, hlt⟩ := (b.next?_eq_some_iff id next).1 h
    exact ⟨hlt, Nat.lt_succ_self id, fun k hk => by omega⟩
  last id _ h k hk := by
    have hend := size_le_of_next? h
    omega

theorem stepsAlong_previous? (b : Body) : b.StepsAlong (· > ·) b.previous? where
  next id before h := by
    obtain ⟨rfl, hlt⟩ := (b.previous?_eq_some_iff id before).1 h
    exact ⟨by omega, Nat.lt_succ_self before, fun k hk => by omega⟩
  last id hid h k _ := by
    have hstart := eq_zero_of_previous? h hid
    omega

theorem previousWorking?_of_lt {b : Body} {id : Nat} (h : id < b.size) :
    b.previousWorking? id = b.lastWorkingBefore? id := by
  rw [previousWorking?, contains, if_pos (decide_eq_true h)]

theorem previousWorking?_of_ge {b : Body} {id : Nat} (h : b.size ≤ id) : b.previousWorking? id = none := by
  rw [previousWorking?, contains, if_neg (by simpa using h)]

theorem nextWorking?_of_ge {b : Body} {id : Nat} (h : b.size ≤ id + 1) : b.nextWorking? id = none := by
  rw [nextWorking?, List.drop_of_length_le h]
  rfl

theorem skipsNops_next? (b : Body) : b.SkipsNops b.next? b.nextWorking? where
  turn id := by
    cases hnext : b.next? id with
    | none => exact nextWorking?_of_ge (size_le_of_next? hnext)
    | some next =>
      obtain ⟨rfl, hlt⟩ := (b.next?_eq_some_iff id next).1 hnext
      have hget : b.get? (id + 1) = some b.instructions[id + 1] := List.getElem?_eq_getElem hlt
      simp only [Option.bind_some, nextWorking?, List.drop_eq_getElem_cons hlt, List.findIdx?_cons,
        nopAt_iff hget]
      cases b.instructions[id + 1].isNop with
      | true =>
        rw [Bool.not_true, if_neg Bool.false_ne_true, if_pos rfl, Option.map_map]
        congr 1
        funext k
        show id + 1 + (k + 1) = id + 1 + 1 + k
        omega
      | false => rfl
  ends := by
    refine Subrelation.wf (fun {next id} h => ?_) (measure fun id => b.size - id).wf
    obtain ⟨rfl, hlt⟩ := (b.next?_eq_some_iff id next).1 h
    show b.size - (id + 1) < b.size - id
    omega

theorem skipsNops_previous? (b : Body) : b.SkipsNops b.previous? b.previousWorking? where
  turn id := by
    cases hprevious : b.previous? id with
    | none =>
      rcases Nat.lt_or_ge id b.size with hid | hid
      · obtain rfl := eq_zero_of_previous? hprevious hid
        exact previousWorking?_of_lt hid
      · exact previousWorking?_of_ge hid
    | some last =>
      obtain ⟨rfl, hlt⟩ := (b.previous?_eq_some_iff id last).1 hprevious
      have hlast : last < b.size := Nat.lt_of_succ_lt hlt
      obtain ⟨i, hget⟩ := b.get?_eq_some_of_lt last hlast
      rw [Option.bind_some, previousWorking?_of_lt hlt, previousWorking?_of_lt hlast,
        lastWorkingBefore?, hget]
      simp only [nopAt_iff hget]
  ends := by
    refine Subrelation.wf (fun {before id} h => ?_) Nat.lt_wfRel.wf
    obtain ⟨rfl, -⟩ := (b.previous?_eq_some_iff id before).1 h
    exact Nat.lt_succ_self before

/-! ## Neighbours -/

/-- In front of the nearest there are `nop`s only. -/
theorem nearest_lt_iff {b : Body} {i j : Nat} (hj : b.WorksAt j) :
    b.Nearest (· < ·) i j ↔ i < j ∧ ∀ k, i < k → k < j → b.NopAt k := by
  have hsize := hj.lt_size
  constructor
  · intro h
    refine ⟨h.behind, fun k hik hkj => ?_⟩
    by_contra hnop
    have hk := (worksAt_iff_not_nopAt (by omega)).2 hnop
    have := h.nearest k hk hik
    omega
  · rintro ⟨hij, hnops⟩
    refine ⟨hj, hij, fun k hk hik => ?_⟩
    rcases Nat.lt_or_ge k j with hkj | hjk
    · exact absurd (hnops k hik hkj) ((worksAt_iff_not_nopAt hk.lt_size).1 hk)
    · omega

theorem nearest_lt_iff_isLeast (b : Body) (id j : Nat) :
    b.Nearest (· < ·) id j ↔ IsLeast {k | id < k ∧ b.WorksAt k} j := by
  constructor
  · intro h
    refine ⟨⟨h.behind, h.works⟩, ?_⟩
    rintro k ⟨hlt, hk⟩
    have := h.nearest k hk hlt
    omega
  · rintro ⟨⟨hlt, hj⟩, hleast⟩
    refine ⟨hj, hlt, fun k hk hidk => ?_⟩
    have := hleast ⟨hidk, hk⟩
    omega

theorem nearest_gt_iff_isGreatest (b : Body) (id j : Nat) :
    b.Nearest (· > ·) id j ↔ IsGreatest {k | k < id ∧ b.WorksAt k} j := by
  constructor
  · intro h
    refine ⟨⟨h.behind, h.works⟩, ?_⟩
    rintro k ⟨hlt, hk⟩
    have := h.nearest k hk hlt
    omega
  · rintro ⟨⟨hlt, hj⟩, hgreatest⟩
    refine ⟨hj, hlt, fun k hk hkid => ?_⟩
    have := hgreatest ⟨hkid, hk⟩
    omega

/-- **Going on and going back without the `nop`s are inverse to each other.**  Of two instructions that are
not `nop`s, the second is found from the first just when the first is found from the second, and this is so
just when the first stands before the second with nothing but `nop`s between.  From every place of the body,
`nop` or not, the search finds the nearest instruction on its side that is not a `nop`, and nothing just when
there is none; from a place behind the body it finds nothing.  Both searches repeat a step to the neighbour,
and both come to an end. -/
theorem neighbours_without_nops (b : Body) :
    (∀ i j, b.WorksAt i → b.WorksAt j →
      (b.nextWorking? i = some j ↔ b.previousWorking? j = some i) ∧
      (b.previousWorking? j = some i ↔ i < j ∧ ∀ k, i < k → k < j → b.NopAt k)) ∧
    (∀ id < b.size,
      (∀ j, b.nextWorking? id = some j ↔ IsLeast {k | id < k ∧ b.WorksAt k} j) ∧
      (b.nextWorking? id = none ↔ ∀ k, b.WorksAt k → ¬ id < k) ∧
      (∀ j, b.previousWorking? id = some j ↔ IsGreatest {k | k < id ∧ b.WorksAt k} j) ∧
      (b.previousWorking? id = none ↔ ∀ k, b.WorksAt k → ¬ k < id)) ∧
    (∀ id, b.size ≤ id → b.nextWorking? id = none ∧ b.previousWorking? id = none) ∧
    b.SkipsNops b.next? b.nextWorking? ∧ b.SkipsNops b.previous? b.previousWorking? := by
  have hnext : ∀ {id}, id < b.size → ∀ j, b.nextWorking? id = some j ↔ b.Nearest (· < ·) id j :=
    b.skipsNops_next?.eq_some_iff b.stepsAlong_next?
  have hprevious : ∀ {id}, id < b.size → ∀ j,
      b.previousWorking? id = some j ↔ b.Nearest (· > ·) id j :=
    b.skipsNops_previous?.eq_some_iff b.stepsAlong_previous?
  refine ⟨fun i j hi hj => ?_, fun id hid => ⟨fun j => ?_, ?_, fun j => ?_, ?_⟩, fun id hid => ?_,
    b.skipsNops_next?, b.skipsNops_previous?⟩
  · have hreversed : b.Nearest (· < ·) i j ↔ b.Nearest (· > ·) j i :=
      ⟨fun h => h.reversed hi, fun h => h.reversed hj⟩
    rw [hnext hi.lt_size, hprevious hj.lt_size, ← hreversed, nearest_lt_iff hj]
    exact ⟨Iff.rfl, Iff.rfl⟩
  · rw [hnext hid, nearest_lt_iff_isLeast]
  · exact b.skipsNops_next?.eq_none_iff b.stepsAlong_next? hid
  · rw [hprevious hid, nearest_gt_iff_isGreatest]
  · exact b.skipsNops_previous?.eq_none_iff b.stepsAlong_previous? hid
  · exact ⟨nextWorking?_of_ge (Nat.le_succ_of_le hid), previousWorking?_of_ge hid⟩

/-- Two instructions among `nop`s, which stand at both ends and between. -/
def scatteredNops : Body where
  name := "scatteredNops"
  instructions := [{ code := .nop }, { code := .ldarg0 }, { code := .nop }, { code := .nop },
    { code := .ret }, { code := .nop }]
  handlers := []

/-- The instructions at 1 and 4 are neighbours, and 4 is found from the `nop` at 2 as well. -/
theorem scatteredNops_neighbours :
    scatteredNops.nextWorking? 1 = some 4 ∧ scatteredNops.previousWorking? 4 = some 1 ∧
    scatteredNops.nextWorking? 2 = some 4 ∧ scatteredNops.previousWorking? 1 = none ∧
    scatteredNops.nextWorking? 6 = none := by
  obtain ⟨hinverse, hnearest, hbehind, -⟩ := neighbours_without_nops scatteredNops
  obtain ⟨hnext, hnops⟩ := hinverse 1 4 (by decide) (by decide)
  have hbetween : ∀ k, 1 < k → k < 4 → scatteredNops.NopAt k := by
    intro k hlow hhigh
    obtain rfl | rfl : k = 2 ∨ k = 3 := by omega
    · decide
    · decide
  have hprevious := hnops.2 ⟨by decide, hbetween⟩
  refine ⟨hnext.2 hprevious, hprevious, ?_, ?_, (hbehind 6 (by decide)).1⟩
  · refine ((hnearest 2 (by decide)).1 4).2 ⟨by decide, ?_⟩
    rintro k ⟨hlow, hworks⟩
    by_contra hhigh
    obtain rfl : k = 3 := by omega
    exact absurd hworks (by decide)
  · refine (hnearest 1 (by decide)).2.2.2.2 fun k hworks hlow => ?_
    obtain rfl : k = 0 := by omega
    exact absurd hworks (by decide)

end Body

end PushGuard
