import PushGuard.Body
import PushGuard.Proofs.Effects

/-!
# Heights of the stack

The height of the stack before each instruction, as if control went straight through the body.  It
is counted from the start of the body, where it is zero, and goes below zero where more is taken
than was left.  An instruction takes the stack down to its floor and puts its values upon it, so the
value of an instruction lies upon the instruction's floor, and is there (`Survives`) until one goes
down to this floor or below.  There is at most one such value at each height
(`Survives.eq_of_floor_eq`).
-/

namespace PushGuard

namespace Body

/-- The effect of the instruction at this place, if there is one and its effect is known. -/
def effect? (b : Body) (id : Nat) : Option StackEffect :=
  (b.get? id).bind fun i => i.effect.toOption

theorem effect?_eq_some_iff (b : Body) (id : Nat) (e : StackEffect) :
    b.effect? id = some e ↔ ∃ i, b.get? id = some i ∧ i.effect = .ok e := by
  unfold effect?
  rw [Option.bind_eq_some_iff]
  refine exists_congr fun i => and_congr_right fun _ => ?_
  cases i.effect with
  | error rule => simp [Except.toOption]
  | ok e' => simp [Except.toOption]

/-- An instruction of unknown effect counts as one that does nothing. -/
def effectAt (b : Body) (id : Nat) : StackEffect := (b.effect? id).getD ⟨0, 0⟩

theorem effectAt_of_effect? {b : Body} {id : Nat} {e : StackEffect} (h : b.effect? id = some e) :
    b.effectAt id = e := by
  unfold effectAt
  rw [h]
  rfl

/-- The height of the stack before an instruction. -/
def height (b : Body) : Nat → Int
  | 0 => 0
  | id + 1 => b.height id - (b.effectAt id).pops + (b.effectAt id).pushes

/-- The height that an instruction takes the stack down to. -/
def floor (b : Body) (id : Nat) : Int := b.height id - (b.effectAt id).pops

theorem height_succ (b : Body) (id : Nat) :
    b.height (id + 1) = b.floor id + (b.effectAt id).pushes := rfl

theorem floor_succ {b : Body} {id : Nat} {e next : StackEffect} (he : b.effect? id = some e)
    (hnext : b.effect? (id + 1) = some next) :
    b.floor (id + 1) = b.floor id + e.pushes - next.pops := by
  rw [floor, height_succ, effectAt_of_effect? he, effectAt_of_effect? hnext]

/-- The level that is `need` below the top behind an instruction.  Seen from before it, the values
that the instruction leaves are out of the way, and those that it takes come on top. -/
theorem height_succ_sub {b : Body} {id need : Nat} {e : StackEffect} (he : b.effect? id = some e)
    (hpushes : e.pushes ≤ need) :
    b.height (id + 1) - need = b.height id - (need - e.pushes + e.pops : Nat) ∧
      b.floor id = b.height (id + 1) - need + (need - e.pushes : Nat) := by
  have hheight := b.height_succ id
  unfold floor at hheight ⊢
  rw [effectAt_of_effect? he] at hheight ⊢
  omega

/-- The value left by `id` is on the stack before `place`: nothing in between takes the stack down
to where it lies. -/
structure Survives (b : Body) (id place : Nat) : Prop where
  lt : id < place
  pushes : 0 < (b.effectAt id).pushes
  above : ∀ j, id < j → j < place → b.floor id < b.floor j

theorem Survives.start {b : Body} {id : Nat} (h : 0 < (b.effectAt id).pushes) :
    b.Survives id (id + 1) :=
  ⟨Nat.lt_succ_self id, h, fun j hj hj' => by omega⟩

theorem Survives.succ {b : Body} {id place : Nat} (h : b.Survives id place)
    (hfloor : b.floor id < b.floor place) : b.Survives id (place + 1) where
  lt := Nat.lt_succ_of_lt h.lt
  pushes := h.pushes
  above := by
    intro j hj hplace
    rcases Nat.lt_succ_iff_lt_or_eq.1 hplace with hlt | rfl
    · exact h.above j hj hlt
    · exact hfloor

theorem Survives.floor_lt_height {b : Body} {id place : Nat} (h : b.Survives id place) :
    b.floor id < b.height place := by
  cases place with
  | zero => exact absurd h.lt (Nat.not_lt_zero id)
  | succ last =>
    rw [height_succ]
    rcases Nat.lt_succ_iff_lt_or_eq.1 h.lt with hlast | rfl
    · have := h.above last hlast (Nat.lt_succ_self last)
      omega
    · have := h.pushes
      omega

theorem Survives.of_le {b : Body} {id place later : Nat} (h : b.Survives id later)
    (hid : id < place) (hplace : place ≤ later) : b.Survives id place :=
  ⟨hid, h.pushes, fun j hj hplace' => h.above j hj (Nat.lt_of_lt_of_le hplace' hplace)⟩

/-- Two values on the stack lie at different heights. -/
theorem Survives.eq_of_floor_eq {b : Body} {id other place : Nat} (h : b.Survives id place)
    (hother : b.Survives other place) (hfloor : b.floor id = b.floor other) : id = other := by
  rcases Nat.lt_trichotomy id other with hlt | heq | hgt
  · have := h.above other hlt hother.lt
    omega
  · exact heq
  · have := hother.above id hgt h.lt
    omega

/-- The instructions from `first` to `place` start from a stack of height `level`, and do without
what is below it.  The effects of all of them are known. -/
structure Spans (b : Body) (first place : Nat) (level : Int) : Prop where
  le : first ≤ place
  height_first : b.height first = level
  known : ∀ j, first ≤ j → j < place → ∃ e, b.effect? j = some e
  level_le : ∀ j, first ≤ j → j < place → level ≤ b.floor j

namespace Spans

variable {b : Body} {first place : Nat} {level : Int}

theorem refl (b : Body) (place : Nat) : b.Spans place place (b.height place) where
  le := Nat.le_refl place
  height_first := rfl
  known := fun _ hfirst hplace => absurd hplace (Nat.not_lt.2 hfirst)
  level_le := fun _ hfirst hplace => absurd hplace (Nat.not_lt.2 hfirst)

/-- One more instruction is spanned if it does not go below the level. -/
theorem succ (h : b.Spans first place level) (hknown : ∃ e, b.effect? place = some e)
    (hfloor : level ≤ b.floor place) : b.Spans first (place + 1) level where
  le := Nat.le_succ_of_le h.le
  height_first := h.height_first
  known := by
    intro j hfirst hplace
    rcases Nat.lt_succ_iff_lt_or_eq.1 hplace with hlt | rfl
    · exact h.known j hfirst hlt
    · exact hknown
  level_le := by
    intro j hfirst hplace
    rcases Nat.lt_succ_iff_lt_or_eq.1 hplace with hlt | rfl
    · exact h.level_le j hfirst hlt
    · exact hfloor

theorem trans {later : Nat} {high : Int} (h : b.Spans first place level)
    (hlater : b.Spans place later high) (hlevel : level ≤ high) :
    b.Spans first later level where
  le := Nat.le_trans h.le hlater.le
  height_first := h.height_first
  known := by
    intro j hfirst hj
    rcases Nat.lt_or_ge j place with hlt | hge
    · exact h.known j hfirst hlt
    · exact hlater.known j hge hj
  level_le := by
    intro j hfirst hj
    rcases Nat.lt_or_ge j place with hlt | hge
    · exact h.level_le j hfirst hlt
    · exact Int.le_trans hlevel (hlater.level_le j hge hj)

/-- What is on the stack in front of the instructions is there behind them. -/
theorem survives (h : b.Spans first place level) {id : Nat} (hid : b.Survives id first) :
    b.Survives id place where
  lt := Nat.lt_of_lt_of_le hid.lt h.le
  pushes := hid.pushes
  above := by
    intro j hj hplace
    rcases Nat.lt_or_ge j first with hlt | hge
    · exact hid.above j hj hlt
    · have hlow := hid.floor_lt_height
      rw [h.height_first] at hlow
      exact Int.lt_of_lt_of_le hlow (h.level_le j hge hplace)

/-- A value upon the level is left by one of the instructions. -/
theorem first_le (h : b.Spans first place level) {id : Nat} (hid : b.Survives id place)
    (hlevel : level ≤ b.floor id) : first ≤ id := by
  rcases Nat.lt_or_ge id first with hlt | hge
  · have hlow := (hid.of_le hlt h.le).floor_lt_height
    rw [h.height_first] at hlow
    omega
  · exact hge

end Spans

/-- Behind `id`, the instruction `c` is the first that takes the stack down to `level`, or below.
The effects of all instructions from `id` to `c` are known. -/
structure FirstDrop (b : Body) (id c : Nat) (level : Int) : Prop where
  lt : id < c
  known : ∀ j, id ≤ j → j ≤ c → ∃ e, b.effect? j = some e
  above : ∀ j, id < j → j < c → level < b.floor j
  floor_le : b.floor c ≤ level

/-- The first drop is made by the next instruction, or else is the first one behind that. -/
theorem firstDrop_iff (b : Body) (id c : Nat) (level : Int) :
    b.FirstDrop id c level ↔ ∃ e, b.effect? id = some e ∧ ∃ next, b.effect? (id + 1) = some next ∧
      if b.floor (id + 1) ≤ level then c = id + 1 else b.FirstDrop (id + 1) c level := by
  constructor
  · intro h
    have hlt := h.lt
    obtain ⟨e, he⟩ := h.known id (by omega) (by omega)
    obtain ⟨next, hnext⟩ := h.known (id + 1) (by omega) (by omega)
    refine ⟨e, he, next, hnext, ?_⟩
    by_cases hdrop : b.floor (id + 1) ≤ level
    · rw [if_pos hdrop]
      rcases Nat.eq_or_lt_of_le (Nat.succ_le_of_lt hlt) with heq | hbehind
      · exact heq.symm
      · have := h.above (id + 1) (Nat.lt_succ_self id) hbehind
        omega
    · rw [if_neg hdrop]
      have hne : c ≠ id + 1 := fun heq => hdrop (heq ▸ h.floor_le)
      exact ⟨by omega, fun j hj hc => h.known j (by omega) hc,
        fun j hj hc => h.above j (by omega) hc, h.floor_le⟩
  · rintro ⟨e, he, next, hnext, h⟩
    by_cases hdrop : b.floor (id + 1) ≤ level
    · rw [if_pos hdrop] at h
      subst h
      refine ⟨by omega, fun j hj hc => ?_, fun j hj hc => by omega, hdrop⟩
      rcases Nat.le_succ_iff.1 hc with hle | rfl
      · exact ⟨e, Nat.le_antisymm hj hle ▸ he⟩
      · exact ⟨next, hnext⟩
    · rw [if_neg hdrop] at h
      have hlt := h.lt
      refine ⟨by omega, fun j hj hc => ?_, fun j hj hc => ?_, h.floor_le⟩
      · rcases Nat.eq_or_lt_of_le hj with rfl | hlt
        · exact ⟨e, he⟩
        · exact h.known j hlt hc
      · rcases Nat.eq_or_lt_of_le hj with rfl | hlt
        · exact Int.not_le.1 hdrop
        · exact h.above j hlt hc

end Body

end PushGuard
