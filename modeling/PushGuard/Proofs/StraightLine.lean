import PushGuard.Proofs.Pass
import PushGuard.Proofs.ProducerStack

/-!
# The pass and the scan on straight code

The pass counts `dup` as taking a value and leaving two, the scan back from a call as leaving one.
Where control can only go straight on, both lead to the same size of the stack
(`Instruction.effect_of_effectOn`), so the pass carries the size of the stack of producers
(`Policy.Reached.alongStack`), and the scan finds the arguments of a call exactly when the pass has
counted enough values for them.
-/

namespace PushGuard

/-- Control gets to this place from the start of the body and in no other way: the instructions in
front of it go nowhere else, and none of them is entered with an exception. -/
structure Body.StraightTo (b : Body) (place : InstructionId) : Prop where
  targets : ∀ id < place, ∀ i, b.get? id = some i → i.operand.targets = []
  stops : ∀ id < place, ∀ i, b.get? id = some i → i.code.flow.stops = false
  entries : ∀ id ≤ place, ¬ b.IsHandlerEntry id

/-- A call through which the pass gets has the signature of what it calls. -/
theorem Instruction.exists_signature_of_effectOn {i : Instruction} {size : Nat} {e : StackEffect}
    (hflow : i.code.flow = .call) (h : i.effectOn size = .ok e) :
    ∃ sig, i.operand.signature? = some sig := by
  have hdup : i.code ≠ .dup := by
    intro hdup
    rw [hdup] at hflow
    cases hflow
  have hall : ¬ (i.code = .ret ∨ i.code.pops = .everything) := by
    intro hall
    have hstops := i.code.stops_of_takes_all hall
    rw [hflow] at hstops
    cases hstops
  unfold effectOn at h
  rw [if_neg hdup, if_neg hall] at h
  have hpop := ((i.effect_eq_ok_iff e).1 h).1
  rw [popCount, if_pos hflow] at hpop
  cases hsig : i.operand.signature? with
  | none => rw [hsig] at hpop; cases hpop
  | some sig => exact ⟨sig, rfl⟩

namespace Policy

variable {p : Policy} {b : Body} {call : InstructionId}

/-- The pass has no note for a place up to the call, and the state that it carries has the size of the
stack of producers. -/
structure AlongStack (b : Body) (call id : InstructionId) (f : Frontier) : Prop where
  notes : ∀ place ≤ call, f.notes.get? place = none
  stack : ∃ stack, b.producerStack? 0 id = some stack ∧ stack.length = f.state.size

theorem AlongStack.entry {id : InstructionId} {f : Frontier} (h : AlongStack b call id f)
    (hid : id ≤ call) : f.entry id = f.state := by
  unfold Frontier.entry
  rw [h.notes id hid]

theorem AlongStack.start (hstraight : b.StraightTo call) : AlongStack b call 0 (p.start b) where
  notes := by
    intro place hplace
    rw [get?_start, if_neg (hstraight.entries place hplace)]
  stack := ⟨[], rfl, rfl⟩

/-- One instruction in front of the call that finds on the stack what it takes. -/
theorem AlongStack.next (hstraight : b.StraightTo call) {id : InstructionId} {i : Instruction}
    {f : Frontier} {v : Visit} (h : AlongStack b call id f) (hid : id < call)
    (hget : b.get? id = some i) (hvisit : p.visit b.size id i f = .ok v)
    (henough : ∀ e, i.effectOn (f.entry id).size = .ok e → e.pops ≤ (f.entry id).size) :
    AlongStack b call (id + 1) v.next := by
  obtain ⟨-, htransfer, hstate, hnotes⟩ := visit_eq_ok p b.size id i f v hvisit
  have hstops := hstraight.stops id hid i hget
  have htargets := hstraight.targets id hid i hget
  obtain ⟨e, he, -, hafter⟩ := (transfer_eq_ok_iff p id i _ _).1 htransfer
  have hpops := henough e he
  rw [h.entry (Nat.le_of_lt hid)] at he hpops hafter
  obtain ⟨e', he', hpops', hsame⟩ := Instruction.effect_of_effectOn hstops he hpops
  obtain ⟨stack, hstack, hlength⟩ := h.stack
  refine ⟨?_, ?_⟩
  · intro place hplace
    have hnone : place ∉ resolvedTargets b.size i := by
      rw [mem_resolvedTargets, htargets]
      simp
    rw [hnotes, if_neg hnone]
    exact h.notes place hplace
  · refine ⟨List.replicate e'.pushes id ++ stack.drop e'.pops, ?_, ?_⟩
    · rw [Body.producerStack?, if_neg (Nat.not_lt_zero id), hstack]
      refine (b.stackBehind?_eq_some_iff stack _ id).2 ⟨e', ?_, by omega, rfl⟩
      exact (b.effect?_eq_some_iff id e').2 ⟨i, hget, he'⟩
    · have hsize : v.next.state.size = f.state.size - e.pops + e.pushes := by
        rw [hstate, hstops, hafter]
        rfl
      rw [hsize, List.length_append, List.length_replicate, List.length_drop]
      omega

/-- Up to the call the pass carries the size of the stack of producers. -/
theorem Reached.alongStack {states : List StackState} (hanalyze : b.analyze p = .ok states)
    (hstraight : b.StraightTo call)
    (henough : ∀ id < call, ∀ i, b.get? id = some i → ∀ s, states[id]? = some s →
      ∀ e, i.effectOn s.size = .ok e → e.pops ≤ s.size)
    {id : InstructionId} {f : Frontier} (h : Reached p b id f) (hid : id ≤ call) :
    AlongStack b call id f := by
  induction h with
  | start => exact .start hstraight
  | @next id i f v hreached hget hvisit ih =>
    have hlt : id < call := hid
    refine (ih (Nat.le_of_lt hlt)).next hstraight hlt hget hvisit fun e he => ?_
    -- the states are what the pass carries here, as it carries one frontier only
    obtain ⟨f', v', hreached', hvisit', hstate⟩ := (states_of_analyze p b states hanalyze).2 id i hget
    obtain rfl := hreached'.unique hreached
    have hbefore := (visit_eq_ok p b.size id i f' v' hvisit').1
    rw [hbefore] at hstate
    exact henough id hlt i hget _ hstate e he

/-- **The pass and the scan agree on straight code.**  Take a body that the pass accepts and a call to
which control gets only straight from the start, on a stack that never is too small.  The scan finds
the arguments of the call exactly when the pass has counted at least as many values before it as it has
arguments.  Otherwise an argument has no producer. -/
theorem argumentProducers_ok_iff_counted (p : Policy) (b : Body) (states : List StackState)
    (hanalyze : b.analyze p = .ok states) (call : InstructionId) (i : Instruction)
    (hget : b.get? call = some i) (hflow : i.code.flow = .call) (hstraight : b.StraightTo call)
    (henough : ∀ id < call, ∀ j, b.get? id = some j → ∀ s, states[id]? = some s →
      ∀ e, j.effectOn s.size = .ok e → e.pops ≤ s.size) :
    ∃ sig s, i.operand.signature? = some sig ∧ states[call]? = some s ∧
      ((∃ ps, b.argumentProducers call = .ok ps) ↔ argumentCount i.code sig ≤ s.size) ∧
      (s.size < argumentCount i.code sig → b.argumentProducers call = .error (.noProducer call)) := by
  obtain ⟨f, v, hreached, hvisit, hstate⟩ := (states_of_analyze p b states hanalyze).2 call i hget
  obtain ⟨hbefore, htransfer, -, -⟩ := visit_eq_ok p b.size call i f v hvisit
  obtain ⟨e, he, -, -⟩ := (transfer_eq_ok_iff p call i _ _).1 htransfer
  obtain ⟨sig, hsig⟩ := Instruction.exists_signature_of_effectOn hflow he
  have halong := hreached.alongStack hanalyze hstraight henough (Nat.le_refl call)
  obtain ⟨stack, hstack, hlength⟩ := halong.stack
  rw [halong.entry (Nat.le_refl call)] at hbefore
  have hshort : f.state.size < argumentCount i.code sig →
      b.argumentProducers call = .error (.noProducer call) := by
    intro hcount
    rw [Body.argumentProducers_of_signature hget hflow hsig]
    exact Body.producersBefore_of_short_stack hstack (by omega) call []
  refine ⟨sig, v.before, hsig, hstate, ?_, ?_⟩
  · rw [hbefore]
    constructor
    · rintro ⟨ps, hps⟩
      by_contra hcount
      rw [hshort (by omega)] at hps
      cases hps
    · intro hcount
      rw [Body.argumentProducers_of_signature hget hflow hsig]
      exact ⟨_, Body.producersBefore_of_stack hstack (by omega) call []⟩
  · rw [hbefore]
    exact hshort

/-- A value, its copy, and two calls that each take two arguments. -/
def copyAndCall : Body where
  name := "copyAndCall"
  instructions := [{ code := .ldarg0 }, { code := .dup },
    { code := .call, operand := .method ⟨"Math", "Max", ⟨{}, ["int32", "int32"], some "int32"⟩⟩ },
    { code := .call, operand := .method ⟨"Console", "Write", ⟨{}, ["int32", "int32"], none⟩⟩ },
    { code := .brS, operand := .target (some 0) }]
  handlers := []

/-- The states of the pass over `copyAndCall`. -/
def copyAndCallStates : List StackState := [.empty, .clamp 1 0, .clamp 2 0, .clamp 1 0, .clamp 0 0]

/-- The copy is an argument of the first call.  The second call has only the result of the first, which
the pass accepts and the scan does not. -/
theorem copyAndCall_counted :
    (∃ ps, copyAndCall.argumentProducers 2 = .ok ps) ∧
      copyAndCall.argumentProducers 3 = .error (.noProducer 3) := by
  have hanalyze : copyAndCall.analyze {} = .ok copyAndCallStates := by decide
  have hstraight : copyAndCall.StraightTo 3 := ⟨by decide, by decide, by decide⟩
  have henough : ∀ id < 3, ∀ j, copyAndCall.get? id = some j → ∀ s,
      copyAndCallStates[id]? = some s → ∀ e, j.effectOn s.size = .ok e → e.pops ≤ s.size := by
    have hall : ∀ id < 3, ∀ j, copyAndCall.get? id = some j → ∀ s,
        copyAndCallStates[id]? = some s →
        ∀ e, (j.effectOn s.size).toOption = some e → e.pops ≤ s.size := by decide
    intro id hid j hj s hs e he
    exact hall id hid j hj s hs e (by rw [he]; rfl)
  have hbefore : copyAndCall.StraightTo 2 := ⟨by decide, by decide, by decide⟩
  obtain ⟨sig, s, hsig, hs, hiff, -⟩ := argumentProducers_ok_iff_counted {} copyAndCall _ hanalyze 2 _
    rfl rfl hbefore fun id hid => henough id (Nat.lt_succ_of_lt hid)
  obtain ⟨sig', s', hsig', hs', -, hshort⟩ := argumentProducers_ok_iff_counted {} copyAndCall _
    hanalyze 3 _ rfl rfl hstraight henough
  obtain rfl := Option.some.inj hsig
  obtain rfl := Option.some.inj hs
  obtain rfl := Option.some.inj hsig'
  obtain rfl := Option.some.inj hs'
  exact ⟨hiff.2 (by decide), hshort (by decide)⟩

end Policy

end PushGuard
