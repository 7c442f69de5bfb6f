import Mathlib.Order.Bounds.Basic
import PushGuard.Stack.State

/-!
# The order of stack states

`s ≤ t` says that `s` and `t` have the same size and that `s` has no more tainted values.  On the
states of one size this is a linear order, and joining two of them gives the larger one: a join
never invents a state (`isGreatest_merge`).  A state of another size is not comparable, and there
the join simply forgets the older state.

The second part is about the table of noted states: what it holds for an instruction after a branch
has brought the same state to all of its targets.
-/

namespace PushGuard

namespace StackState

/-- The same size, and no more tainted values. -/
instance : PartialOrder StackState where
  le s t := s.size = t.size ∧ s.tainted ≤ t.tainted
  le_refl s := ⟨rfl, Nat.le_refl _⟩
  le_trans s t u hst htu := ⟨hst.1.trans htu.1, hst.2.trans htu.2⟩
  le_antisymm := by
    rintro ⟨n, a, ha⟩ ⟨m, b, hb⟩ ⟨hn, hab⟩ ⟨-, hba⟩
    obtain rfl : n = m := hn
    obtain rfl : a = b := Nat.le_antisymm hab hba
    rfl

theorem le_total_of_size_eq (s t : StackState) (h : s.size = t.size) : s ≤ t ∨ t ≤ s := by
  rcases Nat.le_total s.tainted t.tainted with hle | hle
  · exact Or.inl ⟨h, hle⟩
  · exact Or.inr ⟨h.symm, hle⟩

@[simp] theorem clamp_size (n a : Nat) : (clamp n a).size = n := rfl

@[simp] theorem clamp_tainted (n a : Nat) : (clamp n a).tainted = min n a := rfl

theorem clamp_le_clamp (n a b : Nat) (h : min n a ≤ b) : clamp n a ≤ clamp n b := by
  refine ⟨rfl, ?_⟩
  rw [clamp_tainted, clamp_tainted]
  exact Nat.le_min.2 ⟨Nat.min_le_left n a, h⟩

/-! ## Joins -/

theorem merge_of_size_ne (s t : StackState) (h : t.size ≠ s.size) : s.merge (.merged t) = t := by
  show (if t.size ≠ s.size then t else _) = t
  rw [if_pos h]

theorem merge_of_size_eq (s t : StackState) (h : t.size = s.size) :
    s.merge (.merged t) = clamp t.size (max s.tainted t.tainted) := by
  show (if t.size ≠ s.size then t else _) = _
  rw [if_neg (not_not_intro h)]

theorem merge_of_le (s t : StackState) (h : s ≤ t) : s.merge (.merged t) = t := by
  rw [merge_of_size_eq s t h.1.symm]
  apply le_antisymm
  · exact ⟨rfl, by have := h.2; simp only [clamp_tainted]; omega⟩
  · exact ⟨rfl, by have := t.tainted_le; simp only [clamp_tainted]; omega⟩

/-- Joining changes nothing exactly when the joined state lies below. -/
theorem merge_eq_left_iff (s t : StackState) : s.merge (.merged t) = s ↔ t ≤ s := by
  by_cases hsize : t.size = s.size
  · rw [merge_of_size_eq s t hsize]
    constructor
    · intro h
      have htainted := congrArg tainted h
      simp only [clamp_tainted] at htainted
      have := t.tainted_le
      exact ⟨hsize, by omega⟩
    · intro h
      have := s.tainted_le
      have := h.2
      apply le_antisymm
      · exact ⟨hsize, by simp only [clamp_tainted]; omega⟩
      · exact ⟨hsize.symm, by simp only [clamp_tainted]; omega⟩
  · rw [merge_of_size_ne s t hsize]
    constructor
    · rintro rfl
      exact absurd rfl hsize
    · intro h
      exact absurd h.1 hsize

/-- Nothing comes in from above an instruction that control does not fall through to: the noted
state stands as it is. -/
theorem empty_merge (t : StackState) : empty.merge (.merged t) = t := by
  by_cases hsize : t.size = empty.size
  · apply merge_of_le
    exact ⟨hsize.symm, Nat.zero_le _⟩
  · exact merge_of_size_ne empty t hsize

/-- A state that comes twice counts once, also when it is of another size. -/
theorem merge_merge_self (s t : StackState) :
    (s.merge (.merged t)).merge (.merged t) = s.merge (.merged t) := by
  rw [merge_eq_left_iff]
  by_cases hsize : t.size = s.size
  · rw [merge_of_size_eq s t hsize]
    have := t.tainted_le
    exact ⟨rfl, by simp only [clamp_tainted]; omega⟩
  · rw [merge_of_size_ne s t hsize]

/-- The join of the greatest states of two sets is the greatest state of both together. -/
theorem isGreatest_merge {A B : Set StackState} {s t : StackState} (hs : IsGreatest A s)
    (ht : IsGreatest B t) (hsize : s.size = t.size) :
    IsGreatest (A ∪ B) (s.merge (.merged t)) := by
  rcases le_total_of_size_eq s t hsize with hle | hle
  · rw [merge_of_le s t hle]
    refine ⟨Or.inr ht.1, ?_⟩
    rintro u (hu | hu)
    · exact (hs.2 hu).trans hle
    · exact ht.2 hu
  · rw [(merge_eq_left_iff s t).2 hle]
    refine ⟨Or.inl hs.1, ?_⟩
    rintro u (hu | hu)
    · exact hs.2 hu
    · exact (ht.2 hu).trans hle

end StackState

namespace JoinTable

/-- The note for an instruction after one more state has come to it. -/
def noted (s : StackState) : Option Pending → Pending
  | some p => p.absorb s
  | none => .merged s

theorem noted_noted (s : StackState) (o : Option Pending) :
    noted s (some (noted s o)) = noted s o := by
  rcases o with _ | _ | t
  · show Pending.merged (s.merge (.merged s)) = .merged s
    rw [StackState.merge_of_le s s (le_refl s)]
  · rfl
  · show Pending.merged ((t.merge (.merged s)).merge (.merged s)) = .merged (t.merge (.merged s))
    rw [StackState.merge_merge_self]

theorem get?_propagate (notes : JoinTable) (s : StackState) (target id : Nat) :
    (notes.propagate s target).get? id =
      if id = target then some (noted s (notes.get? target)) else notes.get? id := by
  unfold propagate
  rw [get?_insert]
  cases notes.get? target <;> rfl

/-- What the table holds after a state has been brought to a list of targets: the order of the
targets and how often one of them stands in the list do not matter. -/
theorem get?_propagateAll (targets : List Nat) (s : StackState) (notes : JoinTable) (id : Nat) :
    (targets.foldl (fun notes target => notes.propagate s target) notes).get? id =
      if id ∈ targets then some (noted s (notes.get? id)) else notes.get? id := by
  induction targets generalizing notes with
  | nil => simp
  | cons target targets ih =>
    rw [List.foldl_cons, ih, get?_propagate]
    by_cases hid : id = target
    · subst hid
      rw [if_pos rfl, if_pos List.mem_cons_self, noted_noted]
      exact ite_self _
    · simp only [List.mem_cons, hid, false_or, if_false]

end JoinTable

end PushGuard
