import PushGuard.Proofs.ForwardPaths

/-!
# When one pass is enough for loops

The pass never goes back to a loop head, so what a loop brings there on its second turn is not in
the states it gives.  The states hold for runs of any length exactly when they are stable along the
back edges: joining what the last instruction of a loop leaves into the state of the loop head
changes nothing.  One direction is an induction over runs, in which forward edges are covered by the
pass and back edges by the condition.  For the other, the state in front of a back edge is one that
a real run brings there, so its way around the loop is a run as well.
-/

namespace PushGuard.Policy

variable {p : Policy} {b : Body} {states : List StackState}

/-- No run of any length brings more tainted values to an instruction than its state has. -/
def BoundsRuns (p : Policy) (b : Body) (states : List StackState) : Prop :=
  ∀ id s, Run p b b.Edge id s → ∃ t, states[id]? = some t ∧ s.tainted ≤ t.tainted

/-- What an instruction makes of its state changes nothing at the target of a back edge. -/
def StableAlongBackEdges (p : Policy) (b : Body) (states : List StackState) : Prop :=
  ∀ i < b.size, ∀ j < b.size, b.BackEdge i j → ∀ ins ∈ b.get? i, ∀ s ∈ states[i]?,
    ∀ s' ∈ (p.transfer i ins s).toOption, ∀ t ∈ states[j]?, t.merge (.merged s') = t

instance (p : Policy) (b : Body) (states : List StackState) :
    Decidable (StableAlongBackEdges p b states) :=
  inferInstanceAs (Decidable (∀ i < b.size, _))

theorem exists_state (h : b.analyze p = .ok states) {id : InstructionId} (hlt : id < b.size) :
    ∃ t, states[id]? = some t := by
  rw [← (states_of_analyze p b states h).1] at hlt
  exact ⟨states[id], List.getElem?_eq_getElem hlt⟩

/-- Along a forward edge the state of the target covers what comes in. -/
theorem le_of_forwardEdge {depth : InstructionId → Nat}
    (hdepth : ConsistentDepth p b b.ForwardEdge depth) (h : b.analyze p = .ok states)
    {i j : InstructionId} {ins : Instruction} {s s' t : StackState} (hedge : b.ForwardEdge i j)
    (hget : b.get? i = some ins) (hs : states[i]? = some s)
    (htransfer : p.transfer i ins s = .ok s') (ht : states[j]? = some t) : s' ≤ t := by
  have hrun : Run p b b.ForwardEdge j s' :=
    (run_of_states hdepth h hs).step hget htransfer hedge
  exact (states_isGreatest hdepth h ht).2 hrun

/-- Stable states lie above all runs. -/
theorem StableAlongBackEdges.le {depth : InstructionId → Nat}
    (hdepth : ConsistentDepth p b b.Edge depth) (h : b.analyze p = .ok states)
    (hstable : StableAlongBackEdges p b states) {id : InstructionId} {s : StackState}
    (hrun : Run p b b.Edge id s) : ∃ t, states[id]? = some t ∧ s ≤ t := by
  have hforward : ConsistentDepth p b b.ForwardEdge depth := hdepth.mono fun i j hij => hij.1
  induction hrun with
  | @root id s hroot =>
    have hrun : Run p b b.ForwardEdge id s := .root hroot
    obtain ⟨t, ht⟩ := exists_state h (hrun.lt_size fun i j hij => hij.1)
    exact ⟨t, ht, (states_isGreatest hforward h ht).2 hrun⟩
  | @step i j ins s s' _ hget htransfer hedge ih =>
    obtain ⟨t, ht, hle⟩ := ih
    obtain ⟨t₀, t', ht₀, htransfer'⟩ := transfer_of_analyze p b states h i ins hget
    obtain rfl : t = t₀ := Option.some.inj (ht.symm.trans ht₀)
    obtain ⟨u, hu, hle'⟩ := transfer_mono p i ins hle htransfer'
    obtain rfl : s' = u := Except.ok.inj (htransfer.symm.trans hu)
    obtain ⟨w, hw⟩ := exists_state h hedge.lt_size
    refine ⟨w, hw, hle'.trans ?_⟩
    rcases Nat.lt_or_ge i j with hlt | hge
    · exact le_of_forwardEdge hforward h ⟨hedge, hlt⟩ hget ht htransfer' hw
    · rw [← StackState.merge_eq_left_iff]
      refine hstable i (b.lt_size_of_get? i ins hget) j hedge.lt_size ⟨hedge, hge⟩ ins hget t ht
        t' ?_ w hw
      rw [htransfer']
      rfl

/-- If no run brings more than the states have, they are stable along the back edges. -/
theorem BoundsRuns.stable {depth : InstructionId → Nat}
    (hdepth : ConsistentDepth p b b.Edge depth) (h : b.analyze p = .ok states)
    (hbounds : BoundsRuns p b states) : StableAlongBackEdges p b states := by
  have hforward : ConsistentDepth p b b.ForwardEdge depth := hdepth.mono fun i j hij => hij.1
  intro i _ j _ hback ins hget s hs s' hs' t ht
  have htransfer : p.transfer i ins s = .ok s' := by
    cases hcase : p.transfer i ins s with
    | error fault => rw [hcase] at hs'; cases hs'
    | ok after => rw [hcase] at hs'; rw [Option.some.inj hs']
  -- the pass found `s` on a run, which goes on along the back edge
  have hrun : Run p b b.Edge j s' :=
    ((run_of_states hforward h hs).mono fun i j hij => hij.1).step hget htransfer hback.1
  have hsize : s'.size = t.size := by
    rw [hrun.size_eq hdepth, (run_of_states hforward h ht).size_eq hforward]
  obtain ⟨t', ht', hle⟩ := hbounds j s' hrun
  obtain rfl : t = t' := Option.some.inj (ht.symm.trans ht')
  rw [StackState.merge_eq_left_iff]
  exact ⟨hsize, hle⟩

/-- **One pass is enough for loops exactly when it is stable along the back edges.**  If the sizes
of the stack agree along all edges, the states of a pass that succeeds bound the runs of any length
if and only if joining what goes around a back edge changes nothing; and then no run comes to a
guarded push that uses a tainted value. -/
theorem boundsRuns_iff_stableAlongBackEdges (p : Policy) (b : Body) (states : List StackState)
    (depth : InstructionId → Nat) (h : b.analyze p = .ok states)
    (hdepth : ConsistentDepth p b b.Edge depth) :
    (BoundsRuns p b states ↔ StableAlongBackEdges p b states) ∧
      (StableAlongBackEdges p b states → ∀ id, ¬ RefusedAt p b b.Edge id) := by
  refine ⟨⟨fun hbounds => hbounds.stable hdepth h, fun hstable id s hrun => ?_⟩, ?_⟩
  · obtain ⟨t, ht, hle⟩ := hstable.le hdepth h hrun
    exact ⟨t, ht, hle.2⟩
  · rintro hstable id ⟨ins, s, hget, hrun, hrefuses⟩
    obtain ⟨t, ht, hle⟩ := hstable.le hdepth h hrun
    obtain ⟨t₀, t', ht₀, htransfer⟩ := transfer_of_analyze p b states h id ins hget
    obtain rfl : t = t₀ := Option.some.inj (ht.symm.trans ht₀)
    exact not_refuses_of_transfer_eq_ok p id ins htransfer (hrefuses.mono hle)

/-- A loop that carries a tainted value around; each turn pushes another value above it. -/
def carryingLoop : Body where
  name := "carryingLoop"
  instructions := [{ code := .ldarg0 }, { code := .ldarg1 },
    { code := .call, operand := .method ⟨"InlineIL.IL", "Push", ⟨{}, ["!!0"], none⟩⟩ },
    { code := .ldarg1 },
    { code := .call, operand := .method ⟨"InlineIL.IL", "Push", ⟨{}, ["!!0"], none⟩⟩ },
    { code := .ldarg2 }, { code := .brtrue, operand := .target (some 3) },
    { code := .pop }, { code := .ret }]
  handlers := []

theorem carryingLoop_bounded : ∃ states, carryingLoop.analyze {} = .ok states ∧
    states[3]? = some (.clamp 1 1) ∧ BoundsRuns {} carryingLoop states ∧
    ∀ id, ¬ RefusedAt {} carryingLoop carryingLoop.Edge id := by
  have hdepth : ConsistentDepth {} carryingLoop carryingLoop.Edge
      fun id => [0, 1, 2, 1, 2, 1, 2, 1, 0].getD id 0 := by
    apply ConsistentDepth.of_bounded (fun i j h => h)
    · decide
    · decide
  have hanalyze : carryingLoop.analyze {} = .ok [.empty, .clamp 1 0, .clamp 2 0, .clamp 1 1,
      .clamp 2 1, .clamp 1 1, .clamp 2 1, .clamp 1 1, .empty] := rfl
  obtain ⟨hiff, hrefused⟩ := boundsRuns_iff_stableAlongBackEdges {} carryingLoop _ _ hanalyze hdepth
  exact ⟨_, hanalyze, rfl, hiff.2 (by decide), hrefused (by decide)⟩

/-- A loop that pushes the value it starts with and goes around with a tainted one. -/
def taintingLoop : Body where
  name := "taintingLoop"
  instructions := [{ code := .ldarg0 },
    { code := .call, operand := .method ⟨"InlineIL.IL", "Push", ⟨{}, ["!!0"], none⟩⟩ },
    { code := .ldarg0 }, { code := .ldarg1 },
    { code := .call, operand := .method ⟨"InlineIL.IL", "Push", ⟨{}, ["!!0"], none⟩⟩ },
    { code := .ldarg2 }, { code := .brtrue, operand := .target (some 1) },
    { code := .pop }, { code := .ret }]
  handlers := []

/-- The pass accepts this loop, although its second turn pushes a tainted value. -/
example : ∃ states, taintingLoop.analyze {} = .ok states ∧
    ¬ StableAlongBackEdges {} taintingLoop states :=
  ⟨[.empty, .clamp 1 0, .empty, .clamp 1 0, .clamp 2 0, .clamp 1 1, .clamp 2 1, .clamp 1 1, .empty],
    rfl, by decide⟩

end PushGuard.Policy
