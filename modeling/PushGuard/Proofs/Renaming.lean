import PushGuard.Proofs.Pass
import PushGuard.Proofs.InverseScans

/-!
# Making room for an instruction

When one more instruction is put into a body at place `k`, the instructions from `k` on move by one
place.  `shiftId k` is where each of them goes, and everything that names instructions (operands,
handlers, faults) is renamed by it.  What an instruction does to the stack, whether it is a guarded push
and where it branches to are the same up to this renaming (`Instruction.ShiftedTo`).

Two computations that differ by the renaming have the same outcome (`SameOutcome`): they give related
results, or they fail in the same way at the renamed instruction.
-/

namespace PushGuard

/-- The place that an instruction has after one more was put in at `k`. -/
def shiftId (k id : Nat) : Nat := if id < k then id else id + 1

theorem shiftId_of_lt {k id : Nat} (h : id < k) : shiftId k id = id := if_pos h

theorem shiftId_of_le {k id : Nat} (h : k ≤ id) : shiftId k id = id + 1 := if_neg (by omega)

theorem shiftId_injective (k : Nat) : Function.Injective (shiftId k) := by
  intro id id' h
  unfold shiftId at h
  split at h <;> split at h <;> omega

/-- No instruction goes to the place that was made free. -/
theorem shiftId_ne (k id : Nat) : shiftId k id ≠ k := by
  unfold shiftId
  split <;> omega

theorem shiftId_lt_succ_iff {k size : Nat} (hk : k ≤ size) (id : Nat) :
    shiftId k id < size + 1 ↔ id < size := by
  unfold shiftId
  split <;> omega

/-! ## Renaming -/

def Operand.shifted (k : Nat) : Operand → Operand
  | .target id => .target (id.map (shiftId k))
  | .switch ids => .switch (ids.map (Option.map (shiftId k)))
  | operand => operand

def Instruction.shifted (k : Nat) (i : Instruction) : Instruction :=
  { i with operand := i.operand.shifted k }

def Handler.shifted (k : Nat) (h : Handler) : Handler :=
  { h with
    tryStart := h.tryStart.map (shiftId k)
    tryEnd := h.tryEnd.map (shiftId k)
    handlerStart := h.handlerStart.map (shiftId k)
    handlerEnd := h.handlerEnd.map (shiftId k)
    filterStart := h.filterStart.map (shiftId k) }

def Fault.shifted (k : Nat) : Fault → Fault
  | .unrecognized id code rule => .unrecognized (shiftId k id) code rule
  | .taintedPush id method hint => .taintedPush (shiftId k id) method hint
  | .surplus call => .surplus (shiftId k call)
  | .noProducer call => .noProducer (shiftId k call)
  | .notACall id => .notACall (shiftId k id)
  | .noConsumer producer => .noConsumer (shiftId k producer)

theorem Operand.targets_shifted (k : Nat) (operand : Operand) :
    (operand.shifted k).targets = operand.targets.map (Option.map (shiftId k)) := by
  cases operand <;> rfl

theorem Operand.signature?_shifted (k : Nat) (operand : Operand) :
    (operand.shifted k).signature? = operand.signature? := by
  cases operand <;> rfl

theorem Operand.method?_shifted (k : Nat) (operand : Operand) :
    (operand.shifted k).method? = operand.method? := by
  cases operand <;> rfl

theorem Handler.exceptionEntries_shifted (k : Nat) (h : Handler) :
    (h.shifted k).exceptionEntries = h.exceptionEntries.map (shiftId k) := by
  unfold Handler.exceptionEntries Handler.shifted
  cases h.kind <;> cases h.handlerStart <;> cases h.filterStart <;> rfl

/-! ## Renamed instructions -/

/-- `i'` is `i` with its targets renamed, at any offset. -/
structure Instruction.ShiftedTo (k : Nat) (i i' : Instruction) : Prop where
  code : i'.code = i.code
  operand : i'.operand = i.operand.shifted k

namespace Instruction.ShiftedTo

variable {k : Nat} {i i' : Instruction}

theorem signature?_eq (h : i.ShiftedTo k i') : i'.operand.signature? = i.operand.signature? := by
  rw [h.operand, Operand.signature?_shifted]

theorem popCount_eq (h : i.ShiftedTo k i') : i'.popCount = i.popCount :=
  Instruction.popCount_congr h.code h.signature?_eq

theorem effect_eq (h : i.ShiftedTo k i') : i'.effect = i.effect :=
  Instruction.effect_congr h.code h.signature?_eq

theorem effectOn_eq (h : i.ShiftedTo k i') (size : Nat) : i'.effectOn size = i.effectOn size :=
  Instruction.effectOn_congr h.code h.signature?_eq size

theorem recognize_eq (h : i.ShiftedTo k i') (p : Policy) : p.recognize i' = p.recognize i := by
  apply p.recognize_congr h.code
  rw [h.operand, Operand.method?_shifted]

/-- The targets in a body that has one more instruction are the targets that were there, renamed. -/
theorem mem_resolvedTargets_iff (h : i.ShiftedTo k i') {size : Nat} (hk : k ≤ size) (id : Nat) :
    shiftId k id ∈ resolvedTargets (size + 1) i' ↔ id ∈ resolvedTargets size i := by
  rw [mem_resolvedTargets, mem_resolvedTargets, shiftId_lt_succ_iff hk, h.operand,
    Operand.targets_shifted]
  have hmem := List.mem_map_of_injective (Option.map_injective (shiftId_injective k))
    (a := some id) (l := i.operand.targets)
  rw [Option.map_some] at hmem
  rw [hmem]

/-- Nothing branches to the place that was made free. -/
theorem not_mem_resolvedTargets (h : i.ShiftedTo k i') (size : Nat) :
    k ∉ resolvedTargets size i' := by
  rw [mem_resolvedTargets, h.operand, Operand.targets_shifted]
  rintro ⟨hmem, -⟩
  obtain ⟨target, -, htarget⟩ := List.mem_map.1 hmem
  obtain ⟨id, -, hid⟩ := Option.map_eq_some_iff.1 htarget
  exact shiftId_ne k id hid

end Instruction.ShiftedTo

/-! ## Outcomes -/

/-- Both computations succeed with related results, or they fail in the same way, at an instruction and
at the place where it went. -/
inductive SameOutcome (k : Nat) {α β : Type} (R : α → β → Prop) :
    Except Fault α → Except Fault β → Prop
  | ok {a : α} {b : β} : R a b → SameOutcome k R (.ok a) (.ok b)
  | error (fault : Fault) : SameOutcome k R (.error fault) (.error (fault.shifted k))

namespace SameOutcome

variable {k : Nat} {α β γ δ : Type} {R : α → β → Prop} {S : γ → δ → Prop}

theorem exists_of_ok {a : α} {y : Except Fault β} (h : SameOutcome k R (.ok a) y) :
    ∃ b, y = .ok b ∧ R a b := by
  cases h with
  | ok hab => exact ⟨_, rfl, hab⟩

theorem eq_of_error {fault : Fault} {y : Except Fault β}
    (h : SameOutcome k R (.error fault : Except Fault α) y) : y = .error (fault.shifted k) := by
  cases h with
  | error => rfl

theorem bind {x : Except Fault α} {y : Except Fault β} {f : α → Except Fault γ}
    {g : β → Except Fault δ} (h : SameOutcome k R x y)
    (hfg : ∀ a b, R a b → SameOutcome k S (f a) (g b)) : SameOutcome k S (x >>= f) (y >>= g) := by
  cases h with
  | ok hab => exact hfg _ _ hab
  | error fault => exact .error fault

theorem atInstruction {i i' : Instruction} (h : i.ShiftedTo k i') (id : Nat)
    (x : Except StackRule α) :
    SameOutcome k Eq (atInstruction id i x) (atInstruction (shiftId k id) i' x) := by
  cases x with
  | ok a => exact .ok rfl
  | error rule =>
    have hfault : Fault.unrecognized (shiftId k id) i'.code rule =
        (Fault.unrecognized id i.code rule).shifted k := by
      rw [h.code]
      rfl
    show SameOutcome k Eq (.error _) (.error (.unrecognized (shiftId k id) i'.code rule))
    rw [hfault]
    exact .error _

end SameOutcome

end PushGuard
