import PushGuard.Stack.Effect

/-!
# When effects are known

The table leaves open how many values a call takes and leaves, and how many are taken by what
empties the stack.  A call has a known effect if it has the signature of what it calls.  Whatever the
size of the stack, every instruction that has its callee is `Recognized`.
-/

namespace PushGuard

namespace Opcode

theorem pushes_eq_slots (code : Opcode) (h : code.flow ≠ .call) :
    ∃ kinds, code.pushes = .slots kinds := by
  cases code <;> first | exact ⟨_, rfl⟩ | exact absurd rfl h

theorem pops_eq_slots (code : Opcode) (h : code.flow ≠ .call)
    (hall : ¬ (code = .ret ∨ code.pops = .everything)) : ∃ kinds, code.pops = .slots kinds := by
  cases code <;>
    first
    | exact ⟨_, rfl⟩
    | exact absurd rfl h
    | exact absurd (Or.inl rfl) hall
    | exact absurd (Or.inr rfl) hall

/-- Only `dup` leaves two values in the table. -/
theorem pushes_length_le_one (code : Opcode) (hdup : code ≠ .dup) {kinds : List Slot}
    (h : code.pushes = .slots kinds) : kinds.length ≤ 1 := by
  cases code <;>
    first
    | exact absurd rfl hdup
    | (obtain rfl : _ = kinds := PushRule.slots.inj h; decide)
    | cases h

/-- Control does not go on behind an instruction that takes the whole stack. -/
theorem stops_of_takes_all (code : Opcode) (h : code = .ret ∨ code.pops = .everything) :
    code.flow.stops = true := by
  rcases h with rfl | h
  · rfl
  · cases code <;> first | rfl | cases h

end Opcode

namespace Instruction

theorem effect_eq_ok_iff (i : Instruction) (e : StackEffect) :
    i.effect = .ok e ↔ i.popCount = .ok e.pops ∧ i.pushCount = .ok e.pushes := by
  obtain ⟨pops, pushes⟩ := e
  unfold effect
  cases i.popCount with
  | error rule => simp [bind, Except.bind]
  | ok pops' =>
    cases i.pushCount with
    | error rule => simp [bind, Except.bind]
    | ok pushes' => simp [bind, Except.bind, pure, Except.pure]

/-! An effect is read off the opcode and, for a call, the signature of what is called. -/

section Congr

variable {i j : Instruction} (hcode : i.code = j.code)
  (hsig : i.operand.signature? = j.operand.signature?)

include hcode hsig

theorem popCount_congr : i.popCount = j.popCount := by
  unfold popCount
  rw [hcode, hsig]

theorem pushCount_congr : i.pushCount = j.pushCount := by
  unfold pushCount
  rw [hcode, hsig]

theorem effect_congr : i.effect = j.effect := by
  unfold effect
  rw [popCount_congr hcode hsig, pushCount_congr hcode hsig]

theorem effectOn_congr (size : Nat) : i.effectOn size = j.effectOn size := by
  unfold effectOn
  rw [hcode, pushCount_congr hcode hsig, effect_congr hcode hsig]

end Congr

/-- The instruction is no call, or its operand has the signature of what is called. -/
def HasCallee (i : Instruction) : Prop := i.code.flow = .call → i.operand.signature?.isSome

theorem HasCallee.pushCount {i : Instruction} (h : i.HasCallee) : ∃ n, i.pushCount = .ok n := by
  unfold Instruction.pushCount
  by_cases hcall : i.code.flow = .call
  · obtain ⟨sig, hsig⟩ := Option.isSome_iff_exists.1 (h hcall)
    rw [if_pos hcall, hsig]
    exact ⟨_, rfl⟩
  · rw [if_neg hcall]
    by_cases hdup : i.code = .dup
    · rw [if_pos hdup]
      exact ⟨_, rfl⟩
    · obtain ⟨kinds, hkinds⟩ := i.code.pushes_eq_slots hcall
      rw [if_neg hdup, hkinds]
      exact ⟨_, rfl⟩

theorem HasCallee.popCount {i : Instruction} (h : i.HasCallee)
    (hall : ¬ (i.code = .ret ∨ i.code.pops = .everything)) : ∃ n, i.popCount = .ok n := by
  unfold Instruction.popCount
  by_cases hcall : i.code.flow = .call
  · obtain ⟨sig, hsig⟩ := Option.isSome_iff_exists.1 (h hcall)
    rw [if_pos hcall, hsig]
    exact ⟨_, rfl⟩
  · rw [if_neg hcall]
    by_cases hdup : i.code = .dup
    · rw [if_pos hdup]
      exact ⟨_, rfl⟩
    · obtain ⟨kinds, hkinds⟩ := i.code.pops_eq_slots hcall hall
      rw [if_neg hdup, hkinds]
      exact ⟨_, rfl⟩

/-- What says how many values it takes has its callee, and so says how many it leaves. -/
theorem exists_effect_of_popCount (i : Instruction) {pops : Nat} (h : i.popCount = .ok pops) :
    ∃ e, i.effect = .ok e ∧ e.pops = pops := by
  have hcallee : i.HasCallee := by
    intro hcall
    rw [popCount, if_pos hcall] at h
    cases hsig : i.operand.signature? with
    | none =>
      rw [hsig] at h
      cases h
    | some sig => rfl
  obtain ⟨pushes, hpushes⟩ := hcallee.pushCount
  exact ⟨⟨pops, pushes⟩, (i.effect_eq_ok_iff _).2 ⟨h, hpushes⟩, rfl⟩

/-- No instruction leaves more than one value of its own. -/
theorem pushes_le_one {i : Instruction} {e : StackEffect} (h : i.effect = .ok e) :
    e.pushes ≤ 1 := by
  have hpush : i.pushCount = .ok e.pushes := ((i.effect_eq_ok_iff e).1 h).2
  unfold pushCount at hpush
  by_cases hcall : i.code.flow = .call
  · rw [if_pos hcall] at hpush
    cases hsig : i.operand.signature? with
    | none => rw [hsig] at hpush; cases hpush
    | some sig =>
      rw [hsig] at hpush
      have hcount : resultCount i.code sig = e.pushes := Except.ok.inj hpush
      unfold resultCount at hcount
      split at hcount <;> omega
  · rw [if_neg hcall] at hpush
    by_cases hdup : i.code = .dup
    · rw [if_pos hdup] at hpush
      have hcount : 1 = e.pushes := Except.ok.inj hpush
      omega
    · rw [if_neg hdup] at hpush
      obtain ⟨kinds, hkinds⟩ := i.code.pushes_eq_slots hcall
      rw [hkinds] at hpush
      have hcount : kinds.length = e.pushes := Except.ok.inj hpush
      have hle := i.code.pushes_length_le_one hdup hkinds
      omega

/-- The two readings of an instruction behind which control goes on: on a stack that is large enough
they lead to the same size, and the one that looks for producers takes no more. -/
theorem effect_of_effectOn {i : Instruction} {size : Nat} {e : StackEffect}
    (hstops : i.code.flow.stops = false) (h : i.effectOn size = .ok e) (hpops : e.pops ≤ size) :
    ∃ e', i.effect = .ok e' ∧ e'.pops ≤ size ∧
      size - e'.pops + e'.pushes = size - e.pops + e.pushes := by
  unfold effectOn at h
  by_cases hdup : i.code = .dup
  · rw [if_pos hdup] at h
    obtain rfl : ⟨1, 2⟩ = e := Except.ok.inj h
    have hone : 1 ≤ size := hpops
    have heffect : i.effect = .ok ⟨0, 1⟩ := by
      rw [effect_eq_ok_iff, popCount, pushCount, hdup]
      exact ⟨rfl, rfl⟩
    exact ⟨⟨0, 1⟩, heffect, Nat.zero_le size, by show size - 0 + 1 = size - 1 + 2; omega⟩
  · rw [if_neg hdup] at h
    by_cases hall : i.code = .ret ∨ i.code.pops = .everything
    · rw [i.code.stops_of_takes_all hall] at hstops
      cases hstops
    · rw [if_neg hall] at h
      exact ⟨e, h, hpops, rfl⟩

/-- The effect of the instruction is known, whatever the size of the stack. -/
def Recognized (i : Instruction) : Prop := ∀ size, ∃ e, i.effectOn size = .ok e

/-- Whether the effect is known does not depend on the size of the stack. -/
theorem recognized_iff (i : Instruction) :
    i.Recognized ↔ ∃ e, i.effectOn 0 = .ok e := by
  constructor
  · intro h
    exact h 0
  · rintro ⟨e, he⟩ size
    unfold effectOn at he ⊢
    by_cases hdup : i.code = .dup
    · rw [if_pos hdup]
      exact ⟨_, rfl⟩
    · rw [if_neg hdup] at he ⊢
      by_cases hall : i.code = .ret ∨ i.code.pops = .everything
      · rw [if_pos hall] at he ⊢
        cases hpushes : i.pushCount with
        | error rule => rw [hpushes] at he; cases he
        | ok pushes => exact ⟨⟨size, pushes⟩, rfl⟩
      · rw [if_neg hall] at he ⊢
        exact ⟨e, he⟩

instance (i : Instruction) : Decidable i.Recognized :=
  match h : i.effectOn 0 with
  | .ok e => isTrue (i.recognized_iff.2 ⟨e, h⟩)
  | .error _ => isFalse fun hknown => by
    obtain ⟨e, he⟩ := hknown 0
    rw [h] at he
    cases he

theorem HasCallee.recognized {i : Instruction} (h : i.HasCallee) : i.Recognized := by
  intro size
  obtain ⟨pushes, hpushes⟩ := h.pushCount
  unfold effectOn
  by_cases hdup : i.code = .dup
  · rw [if_pos hdup]
    exact ⟨_, rfl⟩
  · rw [if_neg hdup]
    by_cases hall : i.code = .ret ∨ i.code.pops = .everything
    · rw [if_pos hall, hpushes]
      exact ⟨_, rfl⟩
    · obtain ⟨pops, hpops⟩ := h.popCount hall
      rw [if_neg hall]
      exact ⟨⟨pops, pushes⟩, (i.effect_eq_ok_iff _).2 ⟨hpops, hpushes⟩⟩

end Instruction

end PushGuard
