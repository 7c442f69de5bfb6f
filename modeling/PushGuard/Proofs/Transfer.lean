import PushGuard.Analysis.Forward
import PushGuard.Proofs.Effects
import PushGuard.Proofs.StateOrder

/-!
# One instruction of the pass

What an instruction does to a stack state, said without the order in which the pass computes it:
the pass gets through the instruction unless its effect is not known or it is a guarded push that
uses a tainted value (`transfer_eq_ok_iff`, `transfer_eq_error_iff`).  Both the state behind the
instruction and the refusal of a push grow with the tainted part (`transfer_mono`,
`Policy.Refuses.mono`), so what the pass finds in the largest state holds in all below it.
-/

namespace PushGuard

/-- Taking so many values takes a tainted one, or more than there are. -/
def StackState.UsesTainted (s : StackState) (pops : Nat) : Prop :=
  s.size < pops ∨ s.size - pops < s.tainted

instance (s : StackState) (pops : Nat) : Decidable (s.UsesTainted pops) :=
  inferInstanceAs (Decidable (_ ∨ _))

theorem StackState.UsesTainted.mono {s t : StackState} {pops : Nat} (hst : s ≤ t)
    (h : s.UsesTainted pops) : t.UsesTainted pops := by
  obtain ⟨hsize, htainted⟩ := hst
  unfold UsesTainted at h ⊢
  omega

theorem StackState.take_eq (s : StackState) (pops : Nat) :
    s.take pops = (s.size - pops, decide (s.UsesTainted pops)) := by
  unfold take UsesTainted
  by_cases h : pops ≤ s.size
  · rw [if_pos h]
    have hlt : ¬ s.size < pops := Nat.not_lt.2 h
    simp only [hlt, false_or]
  · rw [if_neg h]
    have hlt : s.size < pops := Nat.lt_of_not_le h
    simp only [hlt, true_or, decide_true, Nat.sub_eq_zero_of_le (Nat.le_of_lt hlt)]

namespace Policy

/-- A guarded push is a `call` of the method that is guarded. -/
theorem recognize_eq_some {p : Policy} {i : Instruction} {push : GuardedPush}
    (h : p.recognize i = some push) : i.code = .call ∧ i.operand.method? = some push.method := by
  unfold recognize at h
  split at h
  · next hcode =>
    refine ⟨hcode, ?_⟩
    split at h
    · next method hmethod =>
      split at h
      · obtain ⟨kind, -, rfl⟩ := Option.map_eq_some_iff.1 h
        exact hmethod
      · cases h
    · cases h
  · cases h

theorem recognize_congr (p : Policy) {i j : Instruction} (hcode : i.code = j.code)
    (hmethod : i.operand.method? = j.operand.method?) : p.recognize i = p.recognize j := by
  unfold recognize
  rw [hcode, hmethod]

/-- The instruction is a guarded push that uses a tainted value when it is entered in this state. -/
def Refuses (p : Policy) (i : Instruction) (s : StackState) : Prop :=
  (p.recognize i).isSome ∧ ∃ e, i.effectOn s.size = .ok e ∧ s.UsesTainted e.pops

theorem Refuses.mono {p : Policy} {i : Instruction} {s t : StackState} (hst : s ≤ t)
    (h : p.Refuses i s) : p.Refuses i t := by
  obtain ⟨hpush, e, he, huses⟩ := h
  refine ⟨hpush, e, ?_, huses.mono hst⟩
  rw [← hst.1]
  exact he

/-- The state behind an instruction with this effect, if it is not refused. -/
def leaves (p : Policy) (i : Instruction) (s : StackState) (e : StackEffect) : StackState :=
  let size := s.size - e.pops + e.pushes
  .clamp size (if (p.recognize i).isSome ∨ s.UsesTainted e.pops then size else s.tainted)

theorem leaves_size (p : Policy) (i : Instruction) (s : StackState) (e : StackEffect) :
    (p.leaves i s e).size = s.size - e.pops + e.pushes := rfl

theorem leaves_mono (p : Policy) (i : Instruction) {s t : StackState} (e : StackEffect)
    (hst : s ≤ t) : p.leaves i s e ≤ p.leaves i t e := by
  unfold leaves
  rw [hst.1]
  apply StackState.clamp_le_clamp
  by_cases ht : (p.recognize i).isSome ∨ t.UsesTainted e.pops
  · rw [if_pos ht]
    exact Nat.min_le_left _ _
  · have hs : ¬ ((p.recognize i).isSome ∨ s.UsesTainted e.pops) := by
      intro hs
      exact ht (hs.imp_right fun huses => huses.mono hst)
    rw [if_neg ht, if_neg hs]
    exact (Nat.min_le_right _ _).trans hst.2

/-- The transfer by cases: first the effect, then whether the instruction is a guarded push. -/
theorem transfer_of_effectOn (p : Policy) (id : InstructionId) (i : Instruction) (s : StackState)
    {e : StackEffect} (he : i.effectOn s.size = .ok e) :
    p.transfer id i s = match p.recognize i with
      | some push =>
        if s.UsesTainted e.pops then .error (.taintedPush id push.method (p.hint push))
        else .ok (p.leaves i s e)
      | none => .ok (p.leaves i s e) := by
  unfold transfer leaves
  rw [he]
  simp only [atInstruction, bind, Except.bind, pure, Except.pure, StackState.take_eq,
    decide_eq_true_eq]
  cases hpush : p.recognize i with
  | none => simp
  | some push => simp

theorem transfer_of_effectOn_error (p : Policy) (id : InstructionId) (i : Instruction)
    (s : StackState) {rule : StackRule} (he : i.effectOn s.size = .error rule) :
    p.transfer id i s = .error (.unrecognized id i.code rule) := by
  unfold transfer
  rw [he]
  rfl

/-- The targets of an instruction and its offset do not matter for the state behind it. -/
theorem transfer_congr (p : Policy) (id : InstructionId) {i j : Instruction} (s : StackState)
    (hcode : i.code = j.code) (hsig : i.operand.signature? = j.operand.signature?)
    (hmethod : i.operand.method? = j.operand.method?) : p.transfer id i s = p.transfer id j s := by
  unfold transfer atInstruction
  rw [Instruction.effectOn_congr hcode hsig, p.recognize_congr hcode hmethod, hcode]

/-- The pass gets through an instruction of known effect that is not refused. -/
theorem transfer_eq_ok_iff (p : Policy) (id : InstructionId) (i : Instruction)
    (s s' : StackState) :
    p.transfer id i s = .ok s' ↔
      ∃ e, i.effectOn s.size = .ok e ∧ ¬ p.Refuses i s ∧ s' = p.leaves i s e := by
  cases he : i.effectOn s.size with
  | error rule => simp [transfer_of_effectOn_error p id i s he]
  | ok e =>
    rw [transfer_of_effectOn p id i s he]
    unfold Refuses
    cases hpush : p.recognize i with
    | none => simp [eq_comm]
    | some push =>
      by_cases huses : s.UsesTainted e.pops <;> simp [he, huses, eq_comm]

/-- The two ways to fail at an instruction. -/
theorem transfer_eq_error_iff (p : Policy) (id : InstructionId) (i : Instruction)
    (s : StackState) (fault : Fault) :
    p.transfer id i s = .error fault ↔
      (∃ rule, i.effectOn s.size = .error rule ∧ fault = .unrecognized id i.code rule) ∨
      (∃ push, p.recognize i = some push ∧ p.Refuses i s ∧
        fault = .taintedPush id push.method (p.hint push)) := by
  cases he : i.effectOn s.size with
  | error rule =>
    rw [transfer_of_effectOn_error p id i s he]
    simp [Refuses, he, @eq_comm _ fault]
  | ok e =>
    rw [transfer_of_effectOn p id i s he]
    unfold Refuses
    cases hpush : p.recognize i with
    | none => simp
    | some push =>
      by_cases huses : s.UsesTainted e.pops <;> simp [he, huses, eq_comm]

/-- An instruction that lets a state through lets all smaller ones through, and what it leaves of
them is smaller. -/
theorem transfer_mono (p : Policy) (id : InstructionId) (i : Instruction) {s t t' : StackState}
    (hst : s ≤ t) (ht : p.transfer id i t = .ok t') :
    ∃ s', p.transfer id i s = .ok s' ∧ s' ≤ t' := by
  obtain ⟨e, he, hrefuses, rfl⟩ := (transfer_eq_ok_iff p id i t t').1 ht
  refine ⟨p.leaves i s e, ?_, leaves_mono p i e hst⟩
  rw [transfer_eq_ok_iff]
  refine ⟨e, ?_, fun h => hrefuses (h.mono hst), rfl⟩
  rw [hst.1]
  exact he

theorem not_refuses_of_transfer_eq_ok (p : Policy) (id : InstructionId) (i : Instruction)
    {s s' : StackState} (h : p.transfer id i s = .ok s') : ¬ p.Refuses i s := by
  obtain ⟨_, _, hrefuses, _⟩ := (transfer_eq_ok_iff p id i s s').1 h
  exact hrefuses

end Policy

end PushGuard
