import PushGuard.Proofs.Pass

/-!
# Runs through a body

The flow graph of a body and the stack states that runs along it bring to the instructions.  A run
starts at a root: at an exception handler's entry with the exception on the stack, elsewhere with an
empty stack.  It goes along edges and takes at each instruction the state that the instruction
leaves; it never joins states.  `Run p b edge id s` says that some run along the edges `edge` comes
to `id` in state `s`.

Two sets of edges are of interest: those that go forward, which the pass follows, and all of them.
If the sizes of the stack agree along the edges (`ConsistentDepth`), all states that come to an
instruction have one size, and are comparable.
-/

namespace PushGuard

namespace Body

/-- Control goes from `i` on to the next instruction `j`. -/
def FallsTo (b : Body) (i j : InstructionId) : Prop :=
  j = i + 1 ∧ j < b.size ∧ ∃ ins, b.get? i = some ins ∧ ins.code.flow.stops = false

/-- The instruction `i` names `j` as a target, and `j` lies in the body. -/
def BranchesTo (b : Body) (i j : InstructionId) : Prop :=
  j < b.size ∧ ∃ ins, b.get? i = some ins ∧ some j ∈ ins.operand.targets

/-- The edges of the flow graph.  None leads to the entry of an exception handler. -/
def Edge (b : Body) (i j : InstructionId) : Prop :=
  (b.FallsTo i j ∨ b.BranchesTo i j) ∧ ¬ b.IsHandlerEntry j

/-- The edges that the pass follows. -/
def ForwardEdge (b : Body) (i j : InstructionId) : Prop := b.Edge i j ∧ i < j

/-- The edges that close loops, an instruction that is its own target included. -/
def BackEdge (b : Body) (i j : InstructionId) : Prop := b.Edge i j ∧ j ≤ i

instance (b : Body) (i j : InstructionId) : Decidable (b.FallsTo i j) :=
  inferInstanceAs
    (Decidable (j = i + 1 ∧ j < b.size ∧ ∃ ins ∈ b.get? i, ins.code.flow.stops = false))

instance (b : Body) (i j : InstructionId) : Decidable (b.BranchesTo i j) :=
  inferInstanceAs (Decidable (j < b.size ∧ ∃ ins ∈ b.get? i, some j ∈ ins.operand.targets))

instance (b : Body) (i j : InstructionId) : Decidable (b.Edge i j) :=
  inferInstanceAs (Decidable ((_ ∨ _) ∧ ¬ _))

instance (b : Body) (i j : InstructionId) : Decidable (b.ForwardEdge i j) :=
  inferInstanceAs (Decidable (_ ∧ _))

instance (b : Body) (i j : InstructionId) : Decidable (b.BackEdge i j) :=
  inferInstanceAs (Decidable (_ ∧ _))

theorem Edge.lt_size {b : Body} {i j : InstructionId} (h : b.Edge i j) : j < b.size := by
  rcases h.1 with hfall | hbranch
  · exact hfall.2.1
  · exact hbranch.1

end Body

namespace Policy

/-- The state on entry to an exception handler: the exception, tainted or not, is on the stack. -/
def handlerState (p : Policy) : StackState := .clamp 1 (if p.taintsException then 1 else 0)

theorem handlerEntry_eq (p : Policy) : p.handlerEntry = .forced p.handlerState := by
  unfold handlerEntry handlerState
  cases p.taintsException <;> rfl

/-- Where runs start, and with which state: at the first instruction and where no forward edge
leads to with an empty stack, unless this is the entry of an exception handler. -/
inductive Root (p : Policy) (b : Body) : InstructionId → StackState → Prop
  | first : 0 < b.size → ¬ b.IsHandlerEntry 0 → Root p b 0 .empty
  | unentered {id : InstructionId} : id < b.size → ¬ b.IsHandlerEntry id →
      (∀ i, ¬ b.ForwardEdge i id) → Root p b id .empty
  | handler {id : InstructionId} : id < b.size → b.IsHandlerEntry id →
      Root p b id p.handlerState

/-- A run along these edges comes to this instruction in this state.  A run ends at a guarded push
that uses a tainted value. -/
inductive Run (p : Policy) (b : Body) (edge : InstructionId → InstructionId → Prop) :
    InstructionId → StackState → Prop
  | root {id : InstructionId} {s : StackState} : Root p b id s → Run p b edge id s
  | step {i j : InstructionId} {ins : Instruction} {s s' : StackState} :
      Run p b edge i s → b.get? i = some ins → p.transfer i ins s = .ok s' → edge i j →
      Run p b edge j s'

/-- On some run along these edges the instruction is a guarded push that uses a tainted value. -/
def RefusedAt (p : Policy) (b : Body) (edge : InstructionId → InstructionId → Prop)
    (id : InstructionId) : Prop :=
  ∃ ins s, b.get? id = some ins ∧ Run p b edge id s ∧ p.Refuses ins s

/-- The size of the stack in front of each instruction agrees with the roots and with what the
instructions leave along the edges. -/
structure ConsistentDepth (p : Policy) (b : Body)
    (edge : InstructionId → InstructionId → Prop) (depth : InstructionId → Nat) : Prop where
  root : ∀ id s, Root p b id s → depth id = s.size
  edge : ∀ i j ins e, edge i j → b.get? i = some ins → ins.effectOn (depth i) = .ok e →
    depth j = depth i - e.pops + e.pushes

/-- The sizes agree if they do so at the instructions of the body, which can be computed. -/
theorem ConsistentDepth.of_bounded {p : Policy} {b : Body}
    {edge : InstructionId → InstructionId → Prop} {depth : InstructionId → Nat}
    (hsub : ∀ i j, edge i j → b.Edge i j)
    (hroot : ∀ id < b.size, depth id = (if b.IsHandlerEntry id then 1 else 0) ∨
      ¬ b.IsHandlerEntry id ∧ ∃ i < id, b.ForwardEdge i id)
    (hedge : ∀ i < b.size, ∀ j < b.size, edge i j → ∀ ins ∈ b.get? i,
      ∀ e ∈ (ins.effectOn (depth i)).toOption, depth j = depth i - e.pops + e.pushes) :
    ConsistentDepth p b edge depth where
  root := by
    intro id s h
    cases h with
    | first hlt hentry =>
      rcases hroot 0 hlt with h | ⟨-, i, hi, -⟩
      · rw [h, if_neg hentry]
        rfl
      · exact absurd hi (Nat.not_lt_zero i)
    | unentered hlt hentry hnone =>
      rcases hroot id hlt with h | ⟨-, i, -, hi⟩
      · rw [h, if_neg hentry]
        rfl
      · exact absurd hi (hnone i)
    | handler hlt hentry =>
      rcases hroot id hlt with h | ⟨hnot, -⟩
      · rw [h, if_pos hentry]
        rfl
      · exact absurd hentry hnot
  edge i j ins e hij hget he := by
    refine hedge i (b.lt_size_of_get? i ins hget) j (hsub i j hij).lt_size hij ins hget e ?_
    rw [he]
    rfl

theorem ConsistentDepth.mono {p : Policy} {b : Body}
    {edge edge' : InstructionId → InstructionId → Prop} {depth : InstructionId → Nat}
    (h : ConsistentDepth p b edge depth) (hsub : ∀ i j, edge' i j → edge i j) :
    ConsistentDepth p b edge' depth where
  root := h.root
  edge i j ins e hedge := h.edge i j ins e (hsub i j hedge)

theorem Run.mono {p : Policy} {b : Body} {edge edge' : InstructionId → InstructionId → Prop}
    (hsub : ∀ i j, edge i j → edge' i j) {id : InstructionId} {s : StackState}
    (h : Run p b edge id s) : Run p b edge' id s := by
  induction h with
  | root hroot => exact .root hroot
  | step _ hget htransfer hedge ih => exact ih.step hget htransfer (hsub _ _ hedge)

/-- All runs come to an instruction with one size of the stack. -/
theorem Run.size_eq {p : Policy} {b : Body} {edge : InstructionId → InstructionId → Prop}
    {depth : InstructionId → Nat} (hdepth : ConsistentDepth p b edge depth)
    {id : InstructionId} {s : StackState} (h : Run p b edge id s) : s.size = depth id := by
  induction h with
  | root hroot => exact (hdepth.root _ _ hroot).symm
  | @step i j ins s s' _ hget htransfer hedge ih =>
    obtain ⟨e, he, -, rfl⟩ := (transfer_eq_ok_iff p i ins s s').1 htransfer
    rw [ih] at he
    rw [leaves_size, hdepth.edge i j ins e hedge hget he, ih]

theorem Run.lt_size {p : Policy} {b : Body} {edge : InstructionId → InstructionId → Prop}
    (hsub : ∀ i j, edge i j → b.Edge i j) {id : InstructionId} {s : StackState}
    (h : Run p b edge id s) : id < b.size := by
  cases h with
  | root hroot => cases hroot <;> assumption
  | step _ _ _ hedge => exact (hsub _ _ hedge).lt_size

end Policy

end PushGuard
