import PushGuard.Proofs.Paths

/-!
# The pass looks only forward

What the pass finds at an instruction depends on the instructions up to there, on the targets that
lie between them and on the handlers' entries among them.  It does not depend on targets further up,
on targets that lie nowhere, on how often and in which order a target stands in a switch, or on
anything further down.

Two passes over bodies that agree in front of place `k` (`Body.AgreesBelow`) are compared by what they
carry: the state, and the notes for the instructions that are still to come and lie in front of `k`
(`Frontier.AgreesBetween`).  The other notes may differ, and are never read in front of `k`.
-/

namespace PushGuard

/-! ## Bodies that agree in front of a place -/

/-- The operand names instructions to branch to. -/
def Operand.isBranch : Operand → Bool
  | target _ | switch _ => true
  | _ => false

/-- The same instruction, at place `id`, up to its offset and to targets that do not lie between it
and `k`. -/
structure Instruction.AgreesBelow (k id : InstructionId) (i i' : Instruction) : Prop where
  code : i.code = i'.code
  operand : i.operand = i'.operand ∨ i.operand.isBranch ∧ i'.operand.isBranch ∧
    ∀ target < k, id < target → (some target ∈ i.operand.targets ↔ some target ∈ i'.operand.targets)

/-- The bodies agree in front of place `k`. -/
structure Body.AgreesBelow (k : InstructionId) (b b' : Body) : Prop where
  le_left : k ≤ b.size
  le_right : k ≤ b'.size
  instructions : ∀ id < k, ∀ i i', b.get? id = some i → b'.get? id = some i' →
    i.AgreesBelow k id i'
  entries : ∀ id < k, b.IsHandlerEntry id ↔ b'.IsHandlerEntry id

theorem Operand.signature?_of_isBranch {operand : Operand} (h : operand.isBranch) :
    operand.signature? = Option.none := by
  cases operand <;> first | rfl | cases h

theorem Operand.method?_of_isBranch {operand : Operand} (h : operand.isBranch) :
    operand.method? = Option.none := by
  cases operand <;> first | rfl | cases h

namespace Instruction.AgreesBelow

variable {k id : InstructionId} {i i' : Instruction}

theorem symm (h : i.AgreesBelow k id i') : i'.AgreesBelow k id i where
  code := h.code.symm
  operand := by
    rcases h.operand with hsame | ⟨hi, hi', htargets⟩
    · exact Or.inl hsame.symm
    · exact Or.inr ⟨hi', hi, fun target hk hid => (htargets target hk hid).symm⟩

/-- Both instructions make the same of a state. -/
theorem transfer_eq (h : i.AgreesBelow k id i') (p : Policy) (s : StackState) :
    p.transfer id i s = p.transfer id i' s := by
  rcases h.operand with hsame | ⟨hi, hi', -⟩
  · exact p.transfer_congr id s h.code (by rw [hsame]) (by rw [hsame])
  · apply p.transfer_congr id s h.code
    · rw [Operand.signature?_of_isBranch hi, Operand.signature?_of_isBranch hi']
    · rw [Operand.method?_of_isBranch hi, Operand.method?_of_isBranch hi']

/-- Both instructions have the same targets further down in front of `k`. -/
theorem mem_resolvedTargets_iff (h : i.AgreesBelow k id i') {size size' : Nat} (hsize : k ≤ size)
    (hsize' : k ≤ size') {target : InstructionId} (hid : id < target) (hk : target < k) :
    target ∈ resolvedTargets size i ↔ target ∈ resolvedTargets size' i' := by
  have hmem : some target ∈ i.operand.targets ↔ some target ∈ i'.operand.targets := by
    rcases h.operand with hsame | ⟨-, -, htargets⟩
    · rw [hsame]
    · exact htargets target hk hid
  have hlt : target < size := Nat.lt_of_lt_of_le hk hsize
  have hlt' : target < size' := Nat.lt_of_lt_of_le hk hsize'
  rw [mem_resolvedTargets, mem_resolvedTargets, hmem]
  simp only [hlt, hlt']

end Instruction.AgreesBelow

theorem Body.AgreesBelow.symm {k : InstructionId} {b b' : Body} (h : b.AgreesBelow k b') :
    b'.AgreesBelow k b where
  le_left := h.le_right
  le_right := h.le_left
  instructions id hid i i' hi hi' := (h.instructions id hid i' i hi' hi).symm
  entries id hid := (h.entries id hid).symm

/-! ## What two passes carry -/

/-- The same state is carried, and the same notes are there for the instructions from `id` on in front
of `k`. -/
structure Frontier.AgreesBetween (id k : InstructionId) (f f' : Frontier) : Prop where
  state : f.state = f'.state
  notes : ∀ place, id ≤ place → place < k → f.notes.get? place = f'.notes.get? place

theorem Frontier.AgreesBetween.entry_eq {id k : InstructionId} {f f' : Frontier}
    (h : f.AgreesBetween id k f') (hid : id < k) : f.entry id = f'.entry id := by
  unfold Frontier.entry
  rw [h.state, h.notes id (Nat.le_refl id) hid]

namespace Policy

variable {p : Policy} {b b' : Body} {k : InstructionId}

theorem start_agreesBetween (h : b.AgreesBelow k b') :
    (p.start b).AgreesBetween 0 k (p.start b') where
  state := rfl
  notes := by
    intro place _ hplace
    rw [get?_start, get?_start]
    simp only [h.entries place hplace]

/-- A visit that fails on one side fails in the same way on the other. -/
theorem visit_eq_error_of_agrees {size size' : Nat} {id : InstructionId} {i i' : Instruction}
    {f f' : Frontier} (hi : i.AgreesBelow k id i') (hid : id < k) (hf : f.AgreesBetween id k f')
    {fault : Fault} (hvisit : p.visit size id i f = .error fault) :
    p.visit size' id i' f' = .error fault := by
  rw [visit_eq_error_iff] at hvisit ⊢
  rw [← hi.transfer_eq, ← hf.entry_eq hid]
  exact hvisit

/-- A visit that succeeds on one side succeeds on the other, and both carry on alike. -/
theorem visit_agrees {size size' : Nat} (hsize : k ≤ size) (hsize' : k ≤ size')
    {id : InstructionId} {i i' : Instruction} {f f' : Frontier} (hi : i.AgreesBelow k id i')
    (hid : id < k) (hf : f.AgreesBetween id k f') {v : Visit}
    (hvisit : p.visit size id i f = .ok v) :
    ∃ v', p.visit size' id i' f' = .ok v' ∧ v.next.AgreesBetween (id + 1) k v'.next := by
  obtain ⟨-, htransfer, hstate, hnotes⟩ := visit_eq_ok p size id i f v hvisit
  cases hvisit' : p.visit size' id i' f' with
  | error fault =>
    rw [visit_eq_error_iff, ← hi.transfer_eq, ← hf.entry_eq hid, htransfer] at hvisit'
    cases hvisit'
  | ok v' =>
    obtain ⟨-, htransfer', hstate', hnotes'⟩ := visit_eq_ok p size' id i' f' v' hvisit'
    have hafter : v.after = v'.after := by
      rw [← hi.transfer_eq, ← hf.entry_eq hid, htransfer] at htransfer'
      exact Except.ok.inj htransfer'
    refine ⟨v', rfl, ?_, fun place hplace hk => ?_⟩
    · rw [hstate, hstate', hi.code, hafter]
    · rw [hnotes, hnotes', hafter, hf.notes place (Nat.le_of_succ_le hplace) hk]
      simp only [hi.mem_resolvedTargets_iff hsize hsize' hplace hk]

/-- As far as `k`, a place that one pass reaches is reached by the other, which carries the same
there. -/
theorem Reached.agrees (h : b.AgreesBelow k b') {id : InstructionId} {f : Frontier}
    (hf : Reached p b id f) (hid : id ≤ k) :
    ∃ f', Reached p b' id f' ∧ f.AgreesBetween id k f' := by
  induction hf with
  | start => exact ⟨_, .start, start_agreesBetween h⟩
  | @next id i f v _ hget hvisit ih =>
    have hlt : id < k := hid
    obtain ⟨f', hf', hagrees⟩ := ih (Nat.le_of_lt hlt)
    obtain ⟨i', hget'⟩ := b'.get?_eq_some_of_lt id (Nat.lt_of_lt_of_le hlt h.le_right)
    obtain ⟨v', hvisit', hnext⟩ := visit_agrees h.le_left h.le_right
      (h.instructions id hlt i i' hget hget') hlt hagrees hvisit
    exact ⟨v'.next, hf'.next hget' hvisit', hnext⟩

/-! ## What two passes find -/

/-- The pass comes to this instruction of the body, in this state. -/
def Enters (p : Policy) (b : Body) (id : InstructionId) (s : StackState) : Prop :=
  id < b.size ∧ ∃ f, Reached p b id f ∧ f.entry id = s

/-- The states that a pass gives are those in which it comes to the instructions. -/
theorem enters_iff_of_analyze {states : List StackState} (h : b.analyze p = .ok states)
    (id : InstructionId) (s : StackState) : p.Enters b id s ↔ states[id]? = some s := by
  obtain ⟨hlength, hstates⟩ := states_of_analyze p b states h
  have hentry : ∀ i, b.get? id = some i →
      ∃ f, Reached p b id f ∧ states[id]? = some (f.entry id) := by
    intro i hget
    obtain ⟨f, v, hf, hvisit, hstate⟩ := hstates id i hget
    rw [(visit_eq_ok p b.size id i f v hvisit).1] at hstate
    exact ⟨f, hf, hstate⟩
  constructor
  · rintro ⟨hlt, f, hf, rfl⟩
    obtain ⟨i, hget⟩ := b.get?_eq_some_of_lt id hlt
    obtain ⟨f', hf', hstate⟩ := hentry i hget
    obtain rfl := hf'.unique hf
    exact hstate
  · intro hs
    have hlt : id < b.size := by
      rw [← hlength]
      exact (List.getElem?_eq_some_iff.1 hs).1
    obtain ⟨i, hget⟩ := b.get?_eq_some_of_lt id hlt
    obtain ⟨f, hf, hstate⟩ := hentry i hget
    exact ⟨hlt, f, hf, Option.some.inj (hstate.symm.trans hs)⟩

/-- The pass comes to every instruction in front of the one at which it fails. -/
theorem exists_enters (h : ∀ fault, b.analyze p = .error fault → k ≤ fault.instruction)
    {id : InstructionId} (hlt : id < b.size) (hid : id < k) : ∃ s, p.Enters b id s := by
  cases hanalyze : b.analyze p with
  | ok states =>
    rw [← (states_of_analyze p b states hanalyze).1] at hlt
    exact ⟨states[id], (enters_iff_of_analyze hanalyze id _).2 (List.getElem?_eq_getElem hlt)⟩
  | error fault =>
    obtain ⟨place, i, f, hf, -, hvisit⟩ := fault_of_analyze p b fault hanalyze
    have hplace := h fault hanalyze
    rw [instruction_of_visit_eq_error hvisit] at hplace
    obtain ⟨g, -, -, hg, -, -⟩ := hf.before id (Nat.lt_of_lt_of_le hid hplace)
    exact ⟨g.entry id, hlt, g, hg, rfl⟩

theorem Enters.agrees (h : b.AgreesBelow k b') {id : InstructionId} (hid : id < k)
    {s : StackState} (hs : p.Enters b id s) : p.Enters b' id s := by
  obtain ⟨-, f, hf, rfl⟩ := hs
  obtain ⟨f', hf', hagrees⟩ := hf.agrees h (Nat.le_of_lt hid)
  exact ⟨Nat.lt_of_lt_of_le hid h.le_right, f', hf', (hagrees.entry_eq hid).symm⟩

theorem analyze_eq_error_of_agrees (h : b.AgreesBelow k b') {fault : Fault}
    (hfault : fault.instruction < k) (hanalyze : b.analyze p = .error fault) :
    b'.analyze p = .error fault := by
  obtain ⟨id, i, f, hf, hget, hvisit⟩ := fault_of_analyze p b fault hanalyze
  rw [instruction_of_visit_eq_error hvisit] at hfault
  obtain ⟨f', hf', hagrees⟩ := hf.agrees h (Nat.le_of_lt hfault)
  obtain ⟨i', hget'⟩ := b'.get?_eq_some_of_lt id (Nat.lt_of_lt_of_le hfault h.le_right)
  rw [analyze_eq_error_iff]
  exact ⟨id, i', f', hf', hget', visit_eq_error_of_agrees (h.instructions id hfault i i' hget hget')
    hfault hagrees hvisit⟩

theorem take_states_eq (h : b.AgreesBelow k b') {states states' : List StackState}
    (hstates : b.analyze p = .ok states) (hstates' : b'.analyze p = .ok states') :
    states.take k = states'.take k := by
  apply List.ext_getElem?
  intro id
  by_cases hid : id < k
  · rw [List.getElem?_take_of_lt hid, List.getElem?_take_of_lt hid]
    apply Option.ext
    intro s
    rw [← enters_iff_of_analyze hstates, ← enters_iff_of_analyze hstates']
    exact ⟨fun hs => hs.agrees h hid, fun hs => hs.agrees h.symm hid⟩
  · rw [List.getElem?_take_eq_none (Nat.le_of_not_lt hid),
      List.getElem?_take_eq_none (Nat.le_of_not_lt hid)]

/-- **The pass looks only forward.**  Let two bodies agree in front of place `k`, up to targets that
do not lie further down in front of `k`.  Then every fault in front of `k` is one of both passes or
of neither.  Both come to the same instructions in front of `k`, in the same states; to all of them,
unless there is a fault in front of `k`.  In particular the states of two passes that succeed are the
same there. -/
theorem analyze_looks_only_forward (p : Policy) (b b' : Body) (k : InstructionId)
    (h : b.AgreesBelow k b') :
    (∀ fault, fault.instruction < k →
      (b.analyze p = .error fault ↔ b'.analyze p = .error fault)) ∧
    (∀ id < k, ∀ s, p.Enters b id s ↔ p.Enters b' id s) ∧
    ((∀ fault, b.analyze p = .error fault → k ≤ fault.instruction) →
      ∀ id < k, ∃ s, p.Enters b id s ∧ p.Enters b' id s) ∧
    ∀ states states', b.analyze p = .ok states → b'.analyze p = .ok states' →
      states.take k = states'.take k := by
  refine ⟨fun fault hfault => ⟨?_, ?_⟩, fun id hid s => ⟨?_, ?_⟩, fun hlate id hid => ?_, ?_⟩
  · exact analyze_eq_error_of_agrees h hfault
  · exact analyze_eq_error_of_agrees h.symm hfault
  · exact Enters.agrees h hid
  · exact Enters.agrees h.symm hid
  · obtain ⟨s, hs⟩ := exists_enters hlate (Nat.lt_of_lt_of_le hid h.le_left) hid
    exact ⟨s, hs, hs.agrees h hid⟩
  · intro states states' hstates hstates'
    exact take_states_eq h hstates hstates'

/-- A switch in front of a handler that pushes the exception. -/
def switchOverHandler (targets : List (Option InstructionId)) (rest : List Instruction)
    (handlers : List Handler) : Body where
  name := "switchOverHandler"
  instructions := [{ code := .ldarg0 }, { code := .ldarg1 },
    { code := .switch, operand := .switch targets },
    { code := .call, operand := .method ⟨"InlineIL.IL", "Push", ⟨{}, ["!!0"], none⟩⟩ },
    { code := .ret }] ++ rest
  handlers := { kind := .typed, handlerStart := some 3 } :: handlers

/-- The switch names its target twice. -/
def repeatedSwitch : Body := switchOverHandler [some 4, some 4] [] []

/-- The switch has targets further up, nowhere and behind the return as well, where one more push
stands. -/
def scatteredSwitch : Body := switchOverHandler [some 0, some 4, none, some 5]
  [{ code := .call, operand := .method ⟨"InlineIL.IL", "Push", ⟨{}, ["!!0"], none⟩⟩ }]
  [{ kind := .fault, handlerStart := some 1 }]

/-- If the exception is tainted, both passes fail at the push in the handler.  If it is not, only the
second pass fails, at the last push, and it comes to the return with the value that the switch left. -/
theorem scatteredSwitch_agrees :
    (∃ fault, scatteredSwitch.analyze {} = .error fault ∧ fault.instruction = 3) ∧
      Enters { taintsException := false } scatteredSwitch 4 (.clamp 1 0) := by
  have hagrees : repeatedSwitch.AgreesBelow 5 scatteredSwitch := by
    refine ⟨by decide, by decide, fun id hid i i' hi hi' => ?_, by decide⟩
    match id, hid, hi, hi' with
    | 0, _, rfl, rfl | 1, _, rfl, rfl | 3, _, rfl, rfl | 4, _, rfl, rfl => exact ⟨rfl, Or.inl rfl⟩
    | 2, _, rfl, rfl => exact ⟨rfl, Or.inr ⟨rfl, rfl, by decide⟩⟩
  obtain ⟨hfault, -, -, -⟩ := analyze_looks_only_forward {} _ _ 5 hagrees
  obtain ⟨-, henters, -, -⟩ := analyze_looks_only_forward { taintsException := false } _ _ 5 hagrees
  have hrefused : repeatedSwitch.analyze {} = .error (.taintedPush 3
      ⟨"InlineIL.IL", "Push", ⟨{}, ["!!0"], none⟩⟩
      (some "You may be able to make the IL layout safe by using IL.EnsureLocal.")) := by decide
  have hstates : repeatedSwitch.analyze { taintsException := false } =
      .ok [.empty, .clamp 1 0, .clamp 2 0, .clamp 1 0, .clamp 1 0] := by decide
  refine ⟨⟨_, (hfault _ (by decide)).1 hrefused, rfl⟩, (henters 4 (by decide) _).1 ?_⟩
  exact (enters_iff_of_analyze hstates 4 _).2 rfl

end Policy

end PushGuard
