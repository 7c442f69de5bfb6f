import PushGuard.Proofs.Paths

/-!
# The pass sums up all forward paths

A body may have exponentially many forward paths; the pass keeps one state and one table.  The
invariant `SumsUp` says what they hold in front of an instruction: for every instruction still to
come, the greatest of the states that forward runs bring there from the instructions already
visited, those that fall through apart from those that branch.  At an instruction all its forward
edges come from instructions already visited, so the entry state is the greatest state of all runs
(`SumsUp.isGreatest_entry`).  As the transfer is monotone, what it does to this state is the greatest
state of all runs behind the instruction, which carries the invariant on (`SumsUp.next`).
-/

namespace PushGuard

/-! ## Summaries of sets of states -/

/-- The greatest state of a set, if it has any state. -/
def Summary (S : Set StackState) : Option StackState → Prop
  | none => S = ∅
  | some s => IsGreatest S s

/-- The join of two summaries. -/
def joinSummaries : Option StackState → Option StackState → Option StackState
  | none, o => o
  | some s, none => some s
  | some s, some t => some (s.merge (.merged t))

theorem Summary.union {A B : Set StackState} {o o' : Option StackState} (hA : Summary A o)
    (hB : Summary B o') (hsize : ∀ s ∈ A, ∀ t ∈ B, s.size = t.size) :
    Summary (A ∪ B) (joinSummaries o o') := by
  cases o with
  | none =>
    obtain rfl : A = ∅ := hA
    rw [Set.empty_union]
    exact hB
  | some s =>
    cases o' with
    | none =>
      obtain rfl : B = ∅ := hB
      rw [Set.union_empty]
      exact hA
    | some t => exact StackState.isGreatest_merge hA hB (hsize s hA.1 t hB.1)

namespace Policy

variable {p : Policy} {b : Body}

/-! ## What runs bring to an instruction -/

/-- The states in which forward runs leave an instruction. -/
def outflow (p : Policy) (b : Body) (i : InstructionId) : Set StackState :=
  {s' | ∃ ins s, b.get? i = some ins ∧ Run p b b.ForwardEdge i s ∧ p.transfer i ins s = .ok s'}

/-- The states that come to `j` along these edges from the instructions in front of `place`. -/
def inflow (p : Policy) (b : Body) (edge : InstructionId → InstructionId → Prop)
    (place j : InstructionId) : Set StackState :=
  {s | ∃ i, i < place ∧ edge i j ∧ s ∈ outflow p b i}

theorem inflow_zero (edge : InstructionId → InstructionId → Prop) (j : InstructionId) :
    inflow p b edge 0 j = ∅ := by
  apply Set.eq_empty_of_forall_notMem
  rintro s ⟨i, hlt, -⟩
  exact absurd hlt (Nat.not_lt_zero i)

/-- One more instruction brings what it leaves, if it has an edge. -/
theorem inflow_succ_of_edge {edge : InstructionId → InstructionId → Prop}
    {place j : InstructionId} (h : edge place j) :
    inflow p b edge (place + 1) j = inflow p b edge place j ∪ outflow p b place := by
  ext s
  constructor
  · rintro ⟨i, hlt, hedge, hs⟩
    rcases Nat.lt_succ_iff_lt_or_eq.1 hlt with hlt | rfl
    · exact Or.inl ⟨i, hlt, hedge, hs⟩
    · exact Or.inr hs
  · rintro (⟨i, hlt, hedge, hs⟩ | hs)
    · exact ⟨i, Nat.lt_succ_of_lt hlt, hedge, hs⟩
    · exact ⟨place, Nat.lt_succ_self place, h, hs⟩

theorem inflow_succ_of_not_edge {edge : InstructionId → InstructionId → Prop}
    {place j : InstructionId} (h : ¬ edge place j) :
    inflow p b edge (place + 1) j = inflow p b edge place j := by
  ext s
  constructor
  · rintro ⟨i, hlt, hedge, hs⟩
    rcases Nat.lt_succ_iff_lt_or_eq.1 hlt with hlt | rfl
    · exact ⟨i, hlt, hedge, hs⟩
    · exact absurd hedge h
  · rintro ⟨i, hlt, hedge, hs⟩
    exact ⟨i, Nat.lt_succ_of_lt hlt, hedge, hs⟩

/-- Only the instruction right in front falls through. -/
theorem inflow_falls_succ (place : InstructionId) :
    inflow p b b.FallsTo place (place + 1) = ∅ := by
  apply Set.eq_empty_of_forall_notMem
  rintro s ⟨i, hlt, hfalls, -⟩
  obtain rfl : place = i := Nat.succ.inj hfalls.1
  exact Nat.lt_irrefl place hlt

theorem run_of_mem_outflow {i j : InstructionId} {s : StackState} (hedge : b.ForwardEdge i j)
    (hs : s ∈ outflow p b i) : Run p b b.ForwardEdge j s := by
  obtain ⟨ins, s₀, hget, hrun, htransfer⟩ := hs
  exact hrun.step hget htransfer hedge

theorem run_of_mem_inflow {edge : InstructionId → InstructionId → Prop}
    {place j : InstructionId} {s : StackState} (hsub : ∀ i, edge i j → b.Edge i j)
    (hle : place ≤ j) (hs : s ∈ inflow p b edge place j) : Run p b b.ForwardEdge j s := by
  obtain ⟨i, hlt, hedge, hout⟩ := hs
  exact run_of_mem_outflow ⟨hsub i hedge, Nat.lt_of_lt_of_le hlt hle⟩ hout

/-- A run comes to an instruction that is no handler's entry from a root or along an edge. -/
theorem run_iff {id : InstructionId} (hentry : ¬ b.IsHandlerEntry id) (s : StackState) :
    Run p b b.ForwardEdge id s ↔
      Root p b id s ∨ s ∈ inflow p b b.FallsTo id id ∪ inflow p b b.BranchesTo id id := by
  constructor
  · intro h
    cases h with
    | root hroot => exact Or.inl hroot
    | @step i _ ins s₀ _ hrun hget htransfer hedge =>
      have hout : s ∈ outflow p b i := ⟨ins, s₀, hget, hrun, htransfer⟩
      rcases hedge.1.1 with hfalls | hbranches
      · exact Or.inr (Or.inl ⟨i, hedge.2, hfalls, hout⟩)
      · exact Or.inr (Or.inr ⟨i, hedge.2, hbranches, hout⟩)
  · rintro (hroot | hs | hs)
    · exact .root hroot
    · exact run_of_mem_inflow (fun i h => ⟨Or.inl h, hentry⟩) (Nat.le_refl id) hs
    · exact run_of_mem_inflow (fun i h => ⟨Or.inr h, hentry⟩) (Nat.le_refl id) hs

/-- Runs come to a handler's entry in the handler's state only. -/
theorem run_handlerEntry_iff {id : InstructionId} (hlt : id < b.size)
    (hentry : b.IsHandlerEntry id) (s : StackState) :
    Run p b b.ForwardEdge id s ↔ s = p.handlerState := by
  constructor
  · intro h
    cases h with
    | root hroot =>
      cases hroot with
      | first _ hnot => exact absurd hentry hnot
      | unentered _ hnot _ => exact absurd hentry hnot
      | handler _ _ => rfl
    | step _ _ _ hedge => exact absurd hentry hedge.1.2
  · rintro rfl
    exact .root (.handler hlt hentry)

theorem not_root_of_forwardEdge {i id : InstructionId} {s : StackState}
    (hentry : ¬ b.IsHandlerEntry id) (hedge : b.ForwardEdge i id) : ¬ Root p b id s := by
  intro hroot
  cases hroot with
  | first _ _ => exact absurd hedge.2 (Nat.not_lt_zero i)
  | unentered _ _ hnone => exact hnone i hedge
  | handler _ h => exact hentry h

/-- What an instruction makes of the greatest state is the greatest of what it makes of all. -/
theorem isGreatest_outflow {i : InstructionId} {ins : Instruction} {s s' : StackState}
    (hget : b.get? i = some ins) (hs : IsGreatest {s | Run p b b.ForwardEdge i s} s)
    (htransfer : p.transfer i ins s = .ok s') : IsGreatest (outflow p b i) s' := by
  refine ⟨⟨ins, s, hget, hs.1, htransfer⟩, ?_⟩
  rintro t' ⟨ins', t, hget', hrun, htransfer'⟩
  obtain rfl : ins = ins' := Option.some.inj (hget.symm.trans hget')
  obtain ⟨u, hu, hle⟩ := transfer_mono p i ins (hs.2 hrun) htransfer
  obtain rfl : t' = u := Except.ok.inj (htransfer'.symm.trans hu)
  exact hle

/-! ## The invariant -/

/-- What the pass carries in front of `place` sums up the forward runs through the instructions
already visited. -/
structure SumsUp (p : Policy) (b : Body) (place : InstructionId) (f : Frontier) : Prop where
  /-- The entries of handlers keep their state. -/
  forced : ∀ j, b.IsHandlerEntry j → f.notes.get? j = some p.handlerEntry
  /-- The table holds what branches bring to the instructions still to come. -/
  noted : ∀ j, place ≤ j → j < b.size → ¬ b.IsHandlerEntry j →
    ∃ o : Option StackState, f.notes.get? j = o.map .merged ∧
      Summary (inflow p b b.BranchesTo place j) o
  /-- The state is what falls through to the next instruction. -/
  fallen : place < b.size → ¬ b.IsHandlerEntry place →
    ∃ o : Option StackState, f.state = o.getD .empty ∧
      Summary (inflow p b b.FallsTo place place) o
  /-- Some run gets through every instruction already visited. -/
  passed : ∀ i, i < place → (outflow p b i).Nonempty

theorem SumsUp.start : SumsUp p b 0 (p.start b) where
  forced j hentry := by rw [get?_start, if_pos hentry]
  noted j _ _ hentry := by
    refine ⟨none, ?_, inflow_zero _ _⟩
    rw [get?_start, if_neg hentry]
    rfl
  fallen _ _ := ⟨none, rfl, inflow_zero _ _⟩
  passed i hlt := absurd hlt (Nat.not_lt_zero i)

/-- Joining the state from above with the noted one joins the summaries. -/
theorem entry_eq_join {f : Frontier} {id : InstructionId} {fallen noted : Option StackState}
    (hfallen : f.state = fallen.getD .empty) (hnoted : f.notes.get? id = noted.map .merged) :
    f.entry id = (joinSummaries fallen noted).getD .empty := by
  unfold Frontier.entry
  rw [hfallen, hnoted]
  cases noted with
  | none => cases fallen <;> rfl
  | some t =>
    cases fallen with
    | none => exact StackState.empty_merge t
    | some s => rfl

/-- The greatest state that comes in is the greatest of all runs; where nothing comes in, runs start
with an empty stack. -/
theorem isGreatest_of_summary {id : InstructionId} {o : Option StackState} (hlt : id < b.size)
    (hentry : ¬ b.IsHandlerEntry id) (hpassed : ∀ i, i < id → (outflow p b i).Nonempty)
    (hsum : Summary (inflow p b b.FallsTo id id ∪ inflow p b b.BranchesTo id id) o) :
    IsGreatest {s | Run p b b.ForwardEdge id s} (o.getD .empty) := by
  cases o with
  | none =>
    -- as every earlier instruction lets some run through, there is no edge
    have hnone : ∀ i, ¬ b.ForwardEdge i id := by
      intro i hedge
      obtain ⟨s, hs⟩ := hpassed i hedge.2
      rcases (run_iff hentry s).1 (run_of_mem_outflow hedge hs) with hroot | hin
      · exact not_root_of_forwardEdge hentry hedge hroot
      · rw [hsum] at hin
        exact hin
    refine ⟨.root (.unentered hlt hentry hnone), fun s hs => ?_⟩
    rcases (run_iff hentry s).1 hs with hroot | hin
    · cases hroot with
      | first => exact le_refl _
      | unentered => exact le_refl _
      | handler _ h => exact absurd h hentry
    · rw [hsum] at hin
      exact absurd hin (Set.notMem_empty s)
  | some t =>
    refine ⟨(run_iff hentry t).2 (Or.inr hsum.1), fun s hs => ?_⟩
    rcases (run_iff hentry s).1 hs with hroot | hin
    · -- something comes in along an edge, so the instruction is no root
      exfalso
      rcases hsum.1 with ⟨i, hi, hedge, -⟩ | ⟨i, hi, hedge, -⟩
      · exact not_root_of_forwardEdge hentry ⟨⟨Or.inl hedge, hentry⟩, hi⟩ hroot
      · exact not_root_of_forwardEdge hentry ⟨⟨Or.inr hedge, hentry⟩, hi⟩ hroot
    · exact hsum.2 hin

theorem SumsUp.isGreatest_entry {depth : InstructionId → Nat}
    (hdepth : ConsistentDepth p b b.ForwardEdge depth) {id : InstructionId} {f : Frontier}
    (h : SumsUp p b id f) (hlt : id < b.size) :
    IsGreatest {s | Run p b b.ForwardEdge id s} (f.entry id) := by
  by_cases hentry : b.IsHandlerEntry id
  · have hstate : f.entry id = p.handlerState := by
      unfold Frontier.entry
      rw [h.forced id hentry, handlerEntry_eq]
      rfl
    rw [hstate]
    refine ⟨(run_handlerEntry_iff hlt hentry _).2 rfl, fun s hs => ?_⟩
    exact le_of_eq ((run_handlerEntry_iff hlt hentry s).1 hs)
  · obtain ⟨fallen, hfallen, hfallenSum⟩ := h.fallen hlt hentry
    obtain ⟨noted, hnoted, hnotedSum⟩ := h.noted id (Nat.le_refl id) hlt hentry
    rw [entry_eq_join hfallen hnoted]
    apply isGreatest_of_summary hlt hentry h.passed
    refine hfallenSum.union hnotedSum fun s hs t ht => ?_
    rw [((run_iff hentry s).2 (Or.inr (Or.inl hs))).size_eq hdepth,
      ((run_iff hentry t).2 (Or.inr (Or.inr ht))).size_eq hdepth]

theorem branchesTo_iff {i j : InstructionId} {ins : Instruction} (hget : b.get? i = some ins) :
    b.BranchesTo i j ↔ j ∈ resolvedTargets b.size ins := by
  rw [mem_resolvedTargets]
  constructor
  · rintro ⟨hlt, ins', hget', hmem⟩
    obtain rfl : ins = ins' := Option.some.inj (hget.symm.trans hget')
    exact ⟨hmem, hlt⟩
  · rintro ⟨hmem, hlt⟩
    exact ⟨hlt, ins, hget, hmem⟩

theorem fallsTo_succ_iff {i : InstructionId} {ins : Instruction} (hget : b.get? i = some ins)
    (hlt : i + 1 < b.size) : b.FallsTo i (i + 1) ↔ ins.code.flow.stops = false := by
  constructor
  · rintro ⟨-, -, ins', hget', hstops⟩
    obtain rfl : ins = ins' := Option.some.inj (hget.symm.trans hget')
    exact hstops
  · intro hstops
    exact ⟨rfl, hlt, ins, hget, hstops⟩

/-- What branches bring to `j` once the instruction at `id` is visited as well. -/
theorem summary_branches_succ {depth : InstructionId → Nat}
    (hdepth : ConsistentDepth p b b.ForwardEdge depth) {id j : InstructionId} {ins : Instruction}
    {after : StackState} {o : Option StackState} (hget : b.get? id = some ins) (hlt : id < j)
    (hj : ¬ b.IsHandlerEntry j) (hout : IsGreatest (outflow p b id) after)
    (hsum : Summary (inflow p b b.BranchesTo id j) o) :
    Summary (inflow p b b.BranchesTo (id + 1) j)
      (if j ∈ resolvedTargets b.size ins then joinSummaries o (some after) else o) := by
  by_cases hedge : b.BranchesTo id j
  · rw [if_pos ((branchesTo_iff hget).1 hedge), inflow_succ_of_edge hedge]
    refine hsum.union hout fun s hs t ht => ?_
    have hs' := run_of_mem_inflow (fun i hi => ⟨Or.inr hi, hj⟩) (Nat.le_of_lt hlt) hs
    have ht' := run_of_mem_outflow ⟨⟨Or.inr hedge, hj⟩, hlt⟩ ht
    rw [hs'.size_eq hdepth, ht'.size_eq hdepth]
  · rw [if_neg (fun hmem => hedge ((branchesTo_iff hget).2 hmem)), inflow_succ_of_not_edge hedge]
    exact hsum

/-- What falls through to the next instruction. -/
theorem summary_falls_succ {id : InstructionId} {ins : Instruction} {after : StackState}
    (hget : b.get? id = some ins) (hlt : id + 1 < b.size)
    (hout : IsGreatest (outflow p b id) after) :
    Summary (inflow p b b.FallsTo (id + 1) (id + 1))
      (if ins.code.flow.stops then none else some after) := by
  by_cases hstops : ins.code.flow.stops = true
  · have hedge : ¬ b.FallsTo id (id + 1) := by
      rw [fallsTo_succ_iff hget hlt, hstops]
      exact Bool.noConfusion
    rw [if_pos hstops, inflow_succ_of_not_edge hedge]
    exact inflow_falls_succ id
  · have hedge : b.FallsTo id (id + 1) :=
      (fallsTo_succ_iff hget hlt).2 (Bool.eq_false_iff.2 hstops)
    rw [if_neg hstops, inflow_succ_of_edge hedge, inflow_falls_succ, Set.empty_union]
    exact hout

/-- A visit carries the invariant on. -/
theorem SumsUp.next {depth : InstructionId → Nat}
    (hdepth : ConsistentDepth p b b.ForwardEdge depth) {id : InstructionId} {ins : Instruction}
    {f : Frontier} {v : Visit} (h : SumsUp p b id f) (hget : b.get? id = some ins)
    (hvisit : p.visit b.size id ins f = .ok v) : SumsUp p b (id + 1) v.next := by
  obtain ⟨-, htransfer, hstate, hnotes⟩ := visit_eq_ok p b.size id ins f v hvisit
  have hentry := h.isGreatest_entry hdepth (b.lt_size_of_get? id ins hget)
  have hout := isGreatest_outflow hget hentry htransfer
  refine ⟨fun j hj => ?_, fun j hle hlt hj => ?_, fun hlt hj => ?_, fun i hi => ?_⟩
  · rw [hnotes, h.forced j hj, handlerEntry_eq]
    exact ite_self _
  · obtain ⟨o, ho, hsum⟩ := h.noted j (Nat.le_of_succ_le hle) hlt hj
    refine ⟨_, ?_, summary_branches_succ hdepth hget hle hj hout hsum⟩
    rw [hnotes, ho]
    split
    · cases o <;> rfl
    · rfl
  · refine ⟨_, ?_, summary_falls_succ hget hlt hout⟩
    rw [hstate]
    split <;> rfl
  · rcases Nat.lt_succ_iff_lt_or_eq.1 hi with hi | rfl
    · exact h.passed i hi
    · exact ⟨v.after, hout.1⟩

theorem Reached.sumsUp {depth : InstructionId → Nat}
    (hdepth : ConsistentDepth p b b.ForwardEdge depth) {id : InstructionId} {f : Frontier}
    (h : Reached p b id f) : SumsUp p b id f := by
  induction h with
  | start => exact SumsUp.start
  | next _ hget hvisit ih => exact ih.next hdepth hget hvisit

/-- The pass comes to every instruction in the greatest state of all forward runs. -/
theorem Reached.isGreatest_entry {depth : InstructionId → Nat}
    (hdepth : ConsistentDepth p b b.ForwardEdge depth) {id : InstructionId} {f : Frontier}
    (h : Reached p b id f) (hlt : id < b.size) :
    IsGreatest {s | Run p b b.ForwardEdge id s} (f.entry id) :=
  (h.sumsUp hdepth).isGreatest_entry hdepth hlt

/-- No forward run is refused at an instruction that the pass gets through. -/
theorem Reached.not_refusedAt {depth : InstructionId → Nat}
    (hdepth : ConsistentDepth p b b.ForwardEdge depth) {id : InstructionId} {ins : Instruction}
    {f : Frontier} {v : Visit} (h : Reached p b id f) (hget : b.get? id = some ins)
    (hvisit : p.visit b.size id ins f = .ok v) : ¬ RefusedAt p b b.ForwardEdge id := by
  rintro ⟨ins', s, hget', hrun, hrefuses⟩
  obtain rfl : ins = ins' := Option.some.inj (hget.symm.trans hget')
  obtain ⟨-, htransfer, -, -⟩ := visit_eq_ok p b.size id ins f v hvisit
  have hle := (h.isGreatest_entry hdepth (b.lt_size_of_get? id ins hget)).2 hrun
  exact not_refuses_of_transfer_eq_ok p id ins htransfer (hrefuses.mono hle)

/-- The fault of a pass over known effects is the refusal at the first instruction at which some
forward run is refused. -/
theorem isLeast_of_analyze_eq_error {depth : InstructionId → Nat}
    (hknown : ∀ ins ∈ b.instructions, ins.Recognized)
    (hdepth : ConsistentDepth p b b.ForwardEdge depth) {fault : Fault}
    (h : b.analyze p = .error fault) :
    ∃ id ins push, b.get? id = some ins ∧ p.recognize ins = some push ∧
      fault = .taintedPush id push.method (p.hint push) ∧
      IsLeast {id | RefusedAt p b b.ForwardEdge id} id := by
  obtain ⟨id, ins, f, push, hreached, hget, hpush, hrefuses, hfault⟩ :=
    refusal_of_analyze p b fault hknown h
  have hentry := hreached.isGreatest_entry hdepth (b.lt_size_of_get? id ins hget)
  refine ⟨id, ins, push, hget, hpush, hfault, ⟨ins, _, hget, hentry.1, hrefuses⟩, ?_⟩
  intro j hj
  apply Nat.le_of_not_lt
  intro hlt
  obtain ⟨f', ins', v, hreached', hget', hvisit'⟩ := hreached.before j hlt
  exact hreached'.not_refusedAt hdepth hget' hvisit' hj

theorem states_isGreatest {depth : InstructionId → Nat}
    (hdepth : ConsistentDepth p b b.ForwardEdge depth) {states : List StackState}
    (h : b.analyze p = .ok states) {id : InstructionId} {s : StackState}
    (hs : states[id]? = some s) : IsGreatest {s | Run p b b.ForwardEdge id s} s := by
  obtain ⟨hlength, hstates⟩ := states_of_analyze p b states h
  have hlt : id < b.size := by
    rw [← hlength]
    exact (List.getElem?_eq_some_iff.1 hs).1
  obtain ⟨ins, hget⟩ := b.get?_eq_some_of_lt id hlt
  obtain ⟨f, v, hreached, hvisit, hv⟩ := hstates id ins hget
  obtain ⟨hbefore, -, -, -⟩ := visit_eq_ok p b.size id ins f v hvisit
  obtain rfl : s = v.before := Option.some.inj (hs.symm.trans hv)
  rw [hbefore]
  exact hreached.isGreatest_entry hdepth hlt

/-- A forward run comes to every instruction in the state that the pass gives for it. -/
theorem run_of_states {depth : InstructionId → Nat}
    (hdepth : ConsistentDepth p b b.ForwardEdge depth) {states : List StackState}
    (h : b.analyze p = .ok states) {id : InstructionId} {s : StackState}
    (hs : states[id]? = some s) : Run p b b.ForwardEdge id s :=
  (states_isGreatest hdepth h hs).1

/-- **The pass computes the merge over all forward paths.**  Of a body whose effects are all known
and whose stack sizes agree along the forward edges: the pass refuses a push exactly when one is
refused on some forward path, it reports the first instruction at which this happens, and otherwise
it gives for every instruction the size of the stack there and the largest tainted part that any
forward path brings. -/
theorem analyze_merges_forward_paths (p : Policy) (b : Body) (depth : InstructionId → Nat)
    (hknown : ∀ ins ∈ b.instructions, ins.Recognized)
    (hdepth : ConsistentDepth p b b.ForwardEdge depth) :
    ((∃ id method hint, b.analyze p = .error (.taintedPush id method hint)) ↔
      ∃ id, RefusedAt p b b.ForwardEdge id) ∧
    (∀ fault, b.analyze p = .error fault → ∃ id ins push, b.get? id = some ins ∧
      p.recognize ins = some push ∧ fault = .taintedPush id push.method (p.hint push) ∧
      IsLeast {id | RefusedAt p b b.ForwardEdge id} id) ∧
    ∀ states, b.analyze p = .ok states → states.length = b.size ∧
      ∀ id s, states[id]? = some s →
        s.size = depth id ∧ IsGreatest {s | Run p b b.ForwardEdge id s} s := by
  refine ⟨⟨?_, ?_⟩, fun fault h => isLeast_of_analyze_eq_error hknown hdepth h, ?_⟩
  · rintro ⟨id, method, hint, h⟩
    obtain ⟨id', _, _, _, _, _, hleast⟩ := isLeast_of_analyze_eq_error hknown hdepth h
    exact ⟨id', hleast.1⟩
  · rintro ⟨id, hrefused⟩
    cases h : b.analyze p with
    | error fault =>
      obtain ⟨id', _, push, _, _, hfault, _⟩ := isLeast_of_analyze_eq_error hknown hdepth h
      exact ⟨id', push.method, p.hint push, by rw [hfault]⟩
    | ok states =>
      obtain ⟨ins, s, hget, hrun, hrefuses⟩ := hrefused
      obtain ⟨f, v, hreached, hvisit, _⟩ := (states_of_analyze p b states h).2 id ins hget
      exact absurd ⟨ins, s, hget, hrun, hrefuses⟩ (hreached.not_refusedAt hdepth hget hvisit)
  · intro states h
    refine ⟨(states_of_analyze p b states h).1, fun id s hs => ?_⟩
    have hgreatest := states_isGreatest hdepth h hs
    exact ⟨(run_of_states hdepth h hs).size_eq hdepth, hgreatest⟩

/-- Two ways lead to the `pop`: one goes around a guarded push, one through it. -/
def pushOnOneWay : Body where
  name := "pushOnOneWay"
  instructions := [{ code := .ldarg0 }, { code := .ldarg1 },
    { code := .brtrue, operand := .target (some 5) }, { code := .ldarg2 },
    { code := .call, operand := .method ⟨"InlineIL.IL", "Push", ⟨{}, ["!!0"], none⟩⟩ },
    { code := .pop }, { code := .ret }]
  handlers := []

theorem pushOnOneWay_merged :
    (¬ ∃ id, RefusedAt {} pushOnOneWay pushOnOneWay.ForwardEdge id) ∧
      IsGreatest {s | Run {} pushOnOneWay pushOnOneWay.ForwardEdge 5 s} (.clamp 1 1) := by
  have hdepth : ConsistentDepth {} pushOnOneWay pushOnOneWay.ForwardEdge
      fun id => [0, 1, 2, 1, 2, 1, 0].getD id 0 := by
    apply ConsistentDepth.of_bounded (fun i j h => h.1)
    · decide
    · decide
  obtain ⟨hrefused, -, hstates⟩ :=
    analyze_merges_forward_paths {} pushOnOneWay _ (by decide) hdepth
  have hanalyze : pushOnOneWay.analyze {} = .ok [.empty, .clamp 1 0, .clamp 2 0, .clamp 1 0,
      .clamp 2 0, .clamp 1 1, .empty] := rfl
  refine ⟨?_, ((hstates _ hanalyze).2 5 _ rfl).2⟩
  rw [← hrefused]
  rintro ⟨id, method, hint, h⟩
  rw [hanalyze] at h
  cases h

end Policy

end PushGuard
