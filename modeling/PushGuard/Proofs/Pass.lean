import PushGuard.Proofs.Results
import PushGuard.Proofs.Transfer

/-!
# The pass as a run

`Reached p b id f` says that the pass over the body `b` gets to place `id` and carries the frontier
`f` there.  What the pass returns is read off the places it reaches: it succeeds with the entry
states of all instructions (`states_of_analyze`), or it fails at the first instruction that does not
let its entry state through (`fault_of_analyze`).  An invariant of the pass is then an induction
over `Reached`, with `get?_start` as its base and `visit_eq_ok` as its step.
-/

namespace PushGuard

/-- The instruction is entered with an exception on the stack. -/
def Body.IsHandlerEntry (b : Body) (id : InstructionId) : Prop :=
  id ∈ b.handlers.flatMap Handler.exceptionEntries

instance (b : Body) (id : InstructionId) : Decidable (b.IsHandlerEntry id) :=
  inferInstanceAs (Decidable (_ ∈ _))

theorem mem_resolvedTargets (size : Nat) (i : Instruction) (id : InstructionId) :
    id ∈ resolvedTargets size i ↔ some id ∈ i.operand.targets ∧ id < size := by
  unfold resolvedTargets
  rw [List.mem_filterMap]
  constructor
  · rintro ⟨target, hmem, htarget⟩
    rw [Option.filter_eq_some_iff] at htarget
    obtain ⟨rfl, hlt⟩ := htarget
    exact ⟨hmem, of_decide_eq_true hlt⟩
  · rintro ⟨hmem, hlt⟩
    refine ⟨some id, hmem, ?_⟩
    rw [Option.filter_eq_some_iff]
    exact ⟨rfl, decide_eq_true hlt⟩

theorem JoinTable.get?_insertAll (ids : List Nat) (q : Pending) (notes : JoinTable) (id : Nat) :
    (ids.foldl (fun notes id => notes.insert id q) notes).get? id =
      if id ∈ ids then some q else notes.get? id := by
  induction ids generalizing notes with
  | nil => simp
  | cons first ids ih =>
    rw [List.foldl_cons, ih, get?_insert]
    by_cases hid : id = first
    · subst hid
      rw [if_pos rfl, if_pos List.mem_cons_self]
      exact ite_self _
    · simp only [List.mem_cons, hid, false_or, if_false]

namespace Policy

/-! ## One step -/

theorem get?_start (p : Policy) (b : Body) (id : InstructionId) :
    (p.start b).notes.get? id = if b.IsHandlerEntry id then some p.handlerEntry else none := by
  unfold start
  rw [JoinTable.get?_insertAll]
  rfl

/-- What a visit that succeeds has done. -/
theorem visit_eq_ok (p : Policy) (size : Nat) (id : InstructionId) (i : Instruction)
    (f : Frontier) (v : Visit) (h : p.visit size id i f = .ok v) :
    v.before = f.entry id ∧ p.transfer id i (f.entry id) = .ok v.after ∧
      v.next.state = (if i.code.flow.stops then .empty else v.after) ∧
      ∀ target, v.next.notes.get? target =
        if target ∈ resolvedTargets size i then some (JoinTable.noted v.after (f.notes.get? target))
        else f.notes.get? target := by
  rw [visit, bind_eq_ok_iff] at h
  obtain ⟨after, htransfer, hvisit⟩ := h
  obtain rfl := Except.ok.inj hvisit
  refine ⟨rfl, htransfer, rfl, fun target => ?_⟩
  exact JoinTable.get?_propagateAll _ _ _ _

theorem visit_eq_error_iff (p : Policy) (size : Nat) (id : InstructionId) (i : Instruction)
    (f : Frontier) (fault : Fault) :
    p.visit size id i f = .error fault ↔ p.transfer id i (f.entry id) = .error fault := by
  rw [visit, bind_eq_error_iff]
  constructor
  · rintro (h | ⟨after, -, hvisit⟩)
    · exact h
    · cases hvisit
  · exact Or.inl

/-- The fault of a visit belongs to the instruction that is visited. -/
theorem instruction_of_visit_eq_error {p : Policy} {size : Nat} {id : InstructionId}
    {i : Instruction} {f : Frontier} {fault : Fault} (h : p.visit size id i f = .error fault) :
    fault.instruction = id := by
  rw [visit_eq_error_iff, transfer_eq_error_iff] at h
  rcases h with ⟨rule, -, rfl⟩ | ⟨push, -, -, rfl⟩
  · rfl
  · rfl

/-! ## The run -/

/-- The pass gets to this place and carries this frontier there. -/
inductive Reached (p : Policy) (b : Body) : InstructionId → Frontier → Prop
  | start : Reached p b 0 (p.start b)
  | next {id : InstructionId} {i : Instruction} {f : Frontier} {v : Visit} :
      Reached p b id f → b.get? id = some i → p.visit b.size id i f = .ok v →
      Reached p b (id + 1) v.next

/-- The pass got through every instruction in front of a place that it reaches. -/
theorem Reached.before {p : Policy} {b : Body} {id : InstructionId} {f : Frontier}
    (h : Reached p b id f) (earlier : InstructionId) (hlt : earlier < id) :
    ∃ f' i v, Reached p b earlier f' ∧ b.get? earlier = some i ∧
      p.visit b.size earlier i f' = .ok v := by
  induction h with
  | start => exact absurd hlt (Nat.not_lt_zero _)
  | @next id i f v hreached hget hvisit ih =>
    rcases Nat.lt_succ_iff_lt_or_eq.1 hlt with hlt | rfl
    · exact ih hlt
    · exact ⟨f, i, v, hreached, hget, hvisit⟩

/-- The pass carries one frontier to a place. -/
theorem Reached.unique {p : Policy} {b : Body} {id : InstructionId} {f g : Frontier}
    (hf : Reached p b id f) (hg : Reached p b id g) : f = g := by
  induction hf generalizing g with
  | start =>
    cases hg
    rfl
  | next _ hget hvisit ih =>
    cases hg with
    | next hg hget' hvisit' =>
      obtain rfl := ih hg
      obtain rfl := Option.some.inj (hget.symm.trans hget')
      obtain rfl := Except.ok.inj (hvisit.symm.trans hvisit')
      rfl

theorem getElem?_rest (b : Body) (id : InstructionId) (first : Instruction)
    (rest : List Instruction) (h : ∀ k : Nat, (first :: rest)[k]? = b.get? (id + k)) (k : Nat) :
    rest[k]? = b.get? (id + 1 + k) := by
  have hnext := h (k + 1)
  rw [List.getElem?_cons_succ] at hnext
  rw [hnext, Nat.add_right_comm]
  rfl

theorem states_of_passFrom (p : Policy) (b : Body) (rest : List Instruction)
    (id : InstructionId) (f : Frontier) (states : List StackState)
    (hrest : ∀ k : Nat, rest[k]? = b.get? (id + k)) (hf : Reached p b id f)
    (h : p.passFrom b.size id rest f = .ok states) :
    states.length = rest.length ∧ ∀ (k : Nat) i, rest[k]? = some i → ∃ f' v, Reached p b (id + k) f' ∧
      p.visit b.size (id + k) i f' = .ok v ∧ states[k]? = some v.before := by
  induction rest generalizing id f states with
  | nil =>
    simp only [passFrom, Except.ok.injEq] at h
    subst h
    exact ⟨rfl, fun k i hk => by simp at hk⟩
  | cons first rest ih =>
    have hfirst : b.get? id = some first := (hrest 0).symm
    rw [passFrom, bind_eq_ok_iff] at h
    obtain ⟨v, hvisit, h⟩ := h
    obtain ⟨states', hpass, hcons⟩ := (bind_eq_ok_iff _ _ _).1 h
    obtain rfl : v.before :: states' = states := Except.ok.inj hcons
    obtain ⟨hlength, hstates⟩ :=
      ih _ _ _ (getElem?_rest b id first rest hrest) (hf.next hfirst hvisit) hpass
    refine ⟨by rw [List.length_cons, List.length_cons, hlength], fun k i hk => ?_⟩
    cases k with
    | zero =>
      obtain rfl : first = i := Option.some.inj hk
      exact ⟨f, v, hf, hvisit, rfl⟩
    | succ k =>
      obtain ⟨f', v', hreached, hvisit', hstate⟩ := hstates k i hk
      rw [Nat.add_right_comm] at hreached hvisit'
      exact ⟨f', v', hreached, hvisit', hstate⟩

theorem fault_of_passFrom (p : Policy) (b : Body) (rest : List Instruction)
    (id : InstructionId) (f : Frontier) (fault : Fault)
    (hrest : ∀ k : Nat, rest[k]? = b.get? (id + k)) (hf : Reached p b id f)
    (h : p.passFrom b.size id rest f = .error fault) :
    ∃ place i f', Reached p b place f' ∧ b.get? place = some i ∧
      p.visit b.size place i f' = .error fault := by
  induction rest generalizing id f with
  | nil => simp [passFrom] at h
  | cons first rest ih =>
    have hfirst : b.get? id = some first := (hrest 0).symm
    rw [passFrom, bind_eq_error_iff] at h
    rcases h with hvisit | ⟨v, hvisit, h⟩
    · exact ⟨id, first, f, hf, hfirst, hvisit⟩
    · rcases (bind_eq_error_iff _ _ _).1 h with hpass | ⟨states, -, hstates⟩
      · exact ih (id + 1) v.next (getElem?_rest b id first rest hrest)
          (hf.next hfirst hvisit) hpass
      · cases hstates

/-- The pass that succeeds has visited every instruction, and gives its entry state. -/
theorem states_of_analyze (p : Policy) (b : Body) (states : List StackState)
    (h : b.analyze p = .ok states) :
    states.length = b.size ∧ ∀ id i, b.get? id = some i → ∃ f v, Reached p b id f ∧
      p.visit b.size id i f = .ok v ∧ states[id]? = some v.before := by
  have hpass := states_of_passFrom p b b.instructions 0 (p.start b) states
    (fun k => by rw [Nat.zero_add]; rfl) Reached.start h
  simp only [Nat.zero_add] at hpass
  exact hpass

/-- The pass that succeeds got through every instruction from the state that it gives for it. -/
theorem transfer_of_analyze (p : Policy) (b : Body) (states : List StackState)
    (h : b.analyze p = .ok states) (id : InstructionId) (i : Instruction)
    (hget : b.get? id = some i) :
    ∃ s s', states[id]? = some s ∧ p.transfer id i s = .ok s' := by
  obtain ⟨f, v, -, hvisit, hstate⟩ := (states_of_analyze p b states h).2 id i hget
  obtain ⟨hbefore, htransfer, -, -⟩ := visit_eq_ok p b.size id i f v hvisit
  rw [← hbefore] at htransfer
  exact ⟨v.before, v.after, hstate, htransfer⟩

/-- The pass that fails has reached the instruction that the fault comes from. -/
theorem fault_of_analyze (p : Policy) (b : Body) (fault : Fault)
    (h : b.analyze p = .error fault) :
    ∃ id i f, Reached p b id f ∧ b.get? id = some i ∧ p.visit b.size id i f = .error fault :=
  fault_of_passFrom p b b.instructions 0 (p.start b) fault
    (fun k => by rw [Nat.zero_add]; rfl) Reached.start h

/-- The pass does not get past an instruction that it cannot get through. -/
theorem Reached.le_of_visit_eq_error {p : Policy} {b : Body} {id place : InstructionId}
    {i : Instruction} {f g : Frontier} {fault : Fault} (hf : Reached p b id f)
    (hget : b.get? id = some i) (hvisit : p.visit b.size id i f = .error fault)
    (hg : Reached p b place g) : place ≤ id := by
  apply Nat.le_of_not_lt
  intro hlt
  obtain ⟨f', i', v, hf', hget', hv⟩ := hg.before id hlt
  obtain rfl := hf'.unique hf
  obtain rfl := Option.some.inj (hget.symm.trans hget')
  rw [hvisit] at hv
  cases hv

/-- The pass fails exactly where it reaches an instruction that it cannot get through. -/
theorem analyze_eq_error_iff (p : Policy) (b : Body) (fault : Fault) :
    b.analyze p = .error fault ↔ ∃ id i f, Reached p b id f ∧ b.get? id = some i ∧
      p.visit b.size id i f = .error fault := by
  constructor
  · exact fault_of_analyze p b fault
  · rintro ⟨id, i, f, hf, hget, hvisit⟩
    cases h : b.analyze p with
    | ok states =>
      obtain ⟨f', v, hf', hv, -⟩ := (states_of_analyze p b states h).2 id i hget
      obtain rfl := hf'.unique hf
      rw [hvisit] at hv
      cases hv
    | error fault' =>
      obtain ⟨id', i', f', hf', hget', hvisit'⟩ := fault_of_analyze p b fault' h
      obtain rfl : id = id' := Nat.le_antisymm (hf'.le_of_visit_eq_error hget' hvisit' hf)
        (hf.le_of_visit_eq_error hget hvisit hf')
      obtain rfl := hf'.unique hf
      obtain rfl := Option.some.inj (hget.symm.trans hget')
      obtain rfl := Except.error.inj (hvisit.symm.trans hvisit')
      rfl

/-- If all effects are known, the pass fails only where it refuses a guarded push. -/
theorem refusal_of_analyze (p : Policy) (b : Body) (fault : Fault)
    (hknown : ∀ i ∈ b.instructions, i.Recognized) (h : b.analyze p = .error fault) :
    ∃ id i f push, Reached p b id f ∧ b.get? id = some i ∧ p.recognize i = some push ∧
      p.Refuses i (f.entry id) ∧ fault = .taintedPush id push.method (p.hint push) := by
  obtain ⟨id, i, f, hreached, hget, hvisit⟩ := fault_of_analyze p b fault h
  rw [visit_eq_error_iff, transfer_eq_error_iff] at hvisit
  rcases hvisit with ⟨rule, hrule, -⟩ | ⟨push, hpush, hrefuses, hfault⟩
  · obtain ⟨e, he⟩ := hknown i (List.mem_of_getElem? hget) (f.entry id).size
    rw [he] at hrule
    cases hrule
  · exact ⟨id, i, f, push, hreached, hget, hpush, hrefuses, hfault⟩

end Policy

end PushGuard
