import PushGuard.Proofs.Layout
import PushGuard.Proofs.ProducerStack
import PushGuard.Proofs.Renaming

/-!
# A `nop` more

A `nop` that is put into a body, with everything that names instructions renamed, changes nothing for
the pass and for the scans.  Nothing leads to the `nop` but the instruction before it, so the pass has
no note for it and carries its state over it (`visit_nop`).  The scan back from a call steps over it
with what it needs (`producerBefore_insertNop`), and so does the scan on from a value, as long as there
is a value to follow (`consumerBehind_insertNop`).
-/

namespace PushGuard

theorem forall₂_getElem? {α β : Type} {R : α → β → Prop} {xs : List α} {ys : List β}
    (h : List.Forall₂ R xs ys) (n : Nat) : Option.Rel R xs[n]? ys[n]? := by
  induction h generalizing n with
  | nil => exact .none
  | cons hxy _ ih =>
    cases n with
    | zero => exact .some hxy
    | succ n => exact ih n

/-! ## The body with one `nop` more -/

/-- The instruction does nothing and names nothing. -/
structure Instruction.Idle (i : Instruction) : Prop where
  code : i.code = .nop
  operand : i.operand = .none

theorem Instruction.Idle.effect {i : Instruction} (h : i.Idle) : i.effect = .ok ⟨0, 0⟩ := by
  rw [Instruction.effect_eq_ok_iff, Instruction.popCount, Instruction.pushCount, h.code]
  exact ⟨rfl, rfl⟩

namespace Body

/-- The body with a `nop` at place `k`.  The instructions from there on move by one place, and their
names move with them. -/
def insertNop (b : Body) (k : Nat) : Body :=
  .ofInstructions b.name
    ((b.instructions.take k).map (Instruction.shifted k) ++
      { code := .nop } :: (b.instructions.drop k).map (Instruction.shifted k))
    (b.handlers.map (Handler.shifted k))

theorem size_insertNop (b : Body) (k : Nat) : (b.insertNop k).size = b.size + 1 := by
  have hlayout := (forall₂_layout 0 ((b.instructions.take k).map (Instruction.shifted k) ++
    { code := .nop } :: (b.instructions.drop k).map (Instruction.shifted k))).length_eq
  have hparts := congrArg List.length (List.take_append_drop k b.instructions)
  unfold size insertNop ofInstructions
  rw [hlayout]
  simp only [List.length_append, List.length_cons, List.length_map] at hparts ⊢
  omega

theorem forall₂_layout_shifted (k start : Nat) (instructions : List Instruction) :
    List.Forall₂ (Instruction.ShiftedTo k) instructions
      (layout start (instructions.map (Instruction.shifted k))) := by
  induction instructions generalizing start with
  | nil => exact .nil
  | cons i rest ih => exact .cons ⟨rfl, rfl⟩ (ih _)

/-- In front of the `nop` and behind it stand the renamed instructions. -/
theorem exists_parts_insertNop (b : Body) (k : Nat) :
    ∃ front nop back, (b.insertNop k).instructions = front ++ nop :: back ∧ nop.Idle ∧
      List.Forall₂ (Instruction.ShiftedTo k) (b.instructions.take k) front ∧
      List.Forall₂ (Instruction.ShiftedTo k) (b.instructions.drop k) back := by
  refine ⟨_, _, _, layout_append 0 _ _, ⟨rfl, rfl⟩, ?_, ?_⟩
  · exact forall₂_layout_shifted k 0 _
  · exact forall₂_layout_shifted k _ _

section Places

variable {b : Body} {k : Nat} (hk : k ≤ b.size)
include hk

theorem length_take_of_le_size : (b.instructions.take k).length = k := by
  rw [List.length_take]
  exact Nat.min_eq_left hk

theorem get?_insertNop_self : ∃ nop, (b.insertNop k).get? k = some nop ∧ nop.Idle := by
  obtain ⟨front, nop, back, hparts, hnop, hfront, -⟩ := b.exists_parts_insertNop k
  have hlength : front.length = k := by rw [← hfront.length_eq, length_take_of_le_size hk]
  refine ⟨nop, ?_, hnop⟩
  rw [get?, hparts, List.getElem?_append_right (by omega), hlength, Nat.sub_self]
  rfl

theorem effect?_insertNop_self : (b.insertNop k).effect? k = some ⟨0, 0⟩ := by
  obtain ⟨nop, hget, hnop⟩ := get?_insertNop_self hk
  exact ((b.insertNop k).effect?_eq_some_iff k _).2 ⟨nop, hget, hnop.effect⟩

/-- Every instruction is found at the place where it went. -/
theorem get?_insertNop (id : Nat) :
    Option.Rel (Instruction.ShiftedTo k) (b.get? id) ((b.insertNop k).get? (shiftId k id)) := by
  obtain ⟨front, nop, back, hparts, -, hfront, hback⟩ := b.exists_parts_insertNop k
  have htake := length_take_of_le_size hk
  have hlength : front.length = k := by rw [← hfront.length_eq, htake]
  rw [get?, get?, hparts]
  by_cases hid : id < k
  · have hrel := forall₂_getElem? hfront id
    rw [List.getElem?_take_of_lt hid] at hrel
    rw [shiftId_of_lt hid, List.getElem?_append_left (by omega)]
    exact hrel
  · have hrel := forall₂_getElem? hback (id - k)
    have hplace : k + (id - k) = id := by omega
    have hsucc : id + 1 - front.length = id - k + 1 := by omega
    rw [List.getElem?_drop, hplace] at hrel
    rw [shiftId_of_le (by omega), List.getElem?_append_right (by omega), hsucc,
      List.getElem?_cons_succ]
    exact hrel

end Places

theorem isHandlerEntry_insertNop_iff (b : Body) (k id : Nat) :
    (b.insertNop k).IsHandlerEntry id ↔ ∃ entry, b.IsHandlerEntry entry ∧ shiftId k entry = id := by
  have hentries : (b.insertNop k).handlers.flatMap Handler.exceptionEntries =
      (b.handlers.flatMap Handler.exceptionEntries).map (shiftId k) := by
    show (b.handlers.map (Handler.shifted k)).flatMap Handler.exceptionEntries = _
    rw [List.flatMap_map, List.map_flatMap]
    simp only [Handler.exceptionEntries_shifted]
  unfold IsHandlerEntry
  rw [hentries, List.mem_map]

end Body

/-! ## The pass -/

/-- The same state is carried, and the same notes are there for the renamed instructions. -/
structure Frontier.ShiftedTo (k : Nat) (f f' : Frontier) : Prop where
  state : f'.state = f.state
  notes : ∀ id, f'.notes.get? (shiftId k id) = f.notes.get? id
  free : f'.notes.get? k = none

theorem Frontier.ShiftedTo.entry_eq {k : Nat} {f f' : Frontier} (h : f.ShiftedTo k f') (id : Nat) :
    f'.entry (shiftId k id) = f.entry id := by
  unfold Frontier.entry
  rw [h.notes, h.state]

namespace Policy

variable (p : Policy) {k : Nat}

theorem start_shiftedTo (b : Body) (k : Nat) :
    (p.start b).ShiftedTo k (p.start (b.insertNop k)) where
  state := rfl
  notes := by
    intro id
    have hentry : (b.insertNop k).IsHandlerEntry (shiftId k id) ↔ b.IsHandlerEntry id := by
      rw [Body.isHandlerEntry_insertNop_iff]
      constructor
      · rintro ⟨entry, hentry, heq⟩
        obtain rfl := shiftId_injective k heq
        exact hentry
      · intro hid
        exact ⟨id, hid, rfl⟩
    rw [get?_start, get?_start]
    simp only [hentry]
  free := by
    have hfree : ¬ (b.insertNop k).IsHandlerEntry k := by
      rw [Body.isHandlerEntry_insertNop_iff]
      rintro ⟨entry, -, heq⟩
      exact shiftId_ne k entry heq
    rw [get?_start, if_neg hfree]

theorem transfer_shifted {i i' : Instruction} (h : i.ShiftedTo k i') (id : Nat) (s : StackState) :
    SameOutcome k Eq (p.transfer id i s) (p.transfer (shiftId k id) i' s) := by
  unfold transfer
  rw [h.effectOn_eq, h.recognize_eq]
  refine (SameOutcome.atInstruction h id _).bind ?_
  rintro e _ rfl
  generalize s.take e.pops = taken
  obtain ⟨kept, usesTainted⟩ := taken
  cases p.recognize i with
  | none => exact .ok rfl
  | some push =>
    cases usesTainted with
    | false => exact .ok rfl
    | true => exact .error (.taintedPush id push.method (p.hint push))

/-- One instruction and its renaming. -/
theorem visit_shifted {size : Nat} (hk : k ≤ size) {i i' : Instruction} (h : i.ShiftedTo k i')
    (id : Nat) {f f' : Frontier} (hf : f.ShiftedTo k f') :
    SameOutcome k (fun v v' => v'.before = v.before ∧ v.next.ShiftedTo k v'.next)
      (p.visit size id i f) (p.visit (size + 1) (shiftId k id) i' f') := by
  unfold visit
  rw [hf.entry_eq]
  refine (p.transfer_shifted h id (f.entry id)).bind ?_
  rintro after _ rfl
  refine .ok ⟨rfl, ?_, ?_, ?_⟩
  · show (if i'.code.flow.stops = true then _ else _) = _
    rw [h.code]
  · intro target
    show JoinTable.get? (List.foldl _ _ _) _ = JoinTable.get? (List.foldl _ _ _) _
    rw [JoinTable.get?_propagateAll, JoinTable.get?_propagateAll, hf.notes]
    simp only [h.mem_resolvedTargets_iff hk]
  · show JoinTable.get? (List.foldl _ _ _) _ = none
    rw [JoinTable.get?_propagateAll, if_neg (h.not_mem_resolvedTargets _)]
    exact hf.free

/-- The pass carries its state over the `nop`: the tainted part is no larger than the stack, so taking
nothing takes nothing tainted. -/
theorem transfer_idle {nop : Instruction} (hnop : nop.Idle) (id : Nat) (s : StackState) :
    p.transfer id nop s = .ok s := by
  have heffect : nop.effectOn s.size = .ok ⟨0, 0⟩ := by
    rw [Instruction.effectOn, hnop.effect, hnop.code]
    rfl
  have hpush : p.recognize nop = none := by
    rw [recognize, hnop.code]
    rfl
  have huses : ¬ s.UsesTainted 0 := by
    have hle := s.tainted_le
    unfold StackState.UsesTainted
    omega
  rw [p.transfer_of_effectOn id nop s heffect, hpush]
  show Except.ok (p.leaves nop s ⟨0, 0⟩) = .ok s
  have hmin : min s.size s.tainted = s.tainted := Nat.min_eq_right s.tainted_le
  unfold leaves
  simp only [hpush, huses, Option.isSome_none, Bool.false_eq_true, or_self, if_false, Nat.sub_zero,
    Nat.add_zero, StackState.clamp, hmin]

theorem visit_nop {nop : Instruction} (hnop : nop.Idle) (size : Nat) {f f' : Frontier}
    (hf : f.ShiftedTo k f') : ∃ v, p.visit size k nop f' = .ok v ∧ f.ShiftedTo k v.next := by
  have hentry : f'.entry k = f'.state := by rw [Frontier.entry, hf.free]
  have htargets : resolvedTargets size nop = [] := by
    rw [resolvedTargets, hnop.operand]
    rfl
  have hstops : nop.code.flow.stops = false := by rw [hnop.code]; rfl
  unfold visit
  simp only [hentry, p.transfer_idle hnop, htargets, hstops]
  exact ⟨_, rfl, hf.state, hf.notes, hf.free⟩

/-- Behind the `nop` both passes go on in step. -/
theorem passFrom_shifted {size : Nat} (hk : k ≤ size) {rest rest' : List Instruction}
    (h : List.Forall₂ (Instruction.ShiftedTo k) rest rest') {id : Nat} (hid : k ≤ id)
    {f f' : Frontier} (hf : f.ShiftedTo k f') :
    SameOutcome k Eq (p.passFrom size id rest f) (p.passFrom (size + 1) (id + 1) rest' f') := by
  induction h generalizing id f f' with
  | nil => exact .ok rfl
  | cons hi _ ih =>
    have hvisit := p.visit_shifted hk hi id hf
    rw [shiftId_of_le hid] at hvisit
    rw [passFrom, passFrom]
    refine hvisit.bind fun v v' hv => ?_
    refine (ih (by omega) hv.2).bind fun states states' hstates => ?_
    exact .ok (by rw [hv.1, hstates])

/-- The pass from a place in front of the `nop` on. -/
theorem passFrom_insertNop {size : Nat} (hk : k ≤ size) {front front' back back' : List Instruction}
    {nop : Instruction} (hnop : nop.Idle)
    (hfront : List.Forall₂ (Instruction.ShiftedTo k) front front')
    (hback : List.Forall₂ (Instruction.ShiftedTo k) back back') {id : Nat}
    (hid : id + front.length = k) {f f' : Frontier} (hf : f.ShiftedTo k f') :
    SameOutcome k (fun states states' => states'.eraseIdx front.length = states)
      (p.passFrom size id (front ++ back) f)
      (p.passFrom (size + 1) id (front' ++ nop :: back') f') := by
  induction hfront generalizing id f f' with
  | nil =>
    obtain rfl : id = k := hid
    obtain ⟨v, hvisit, hnext⟩ := p.visit_nop hnop (size + 1) hf
    have hrest := p.passFrom_shifted hk hback (Nat.le_refl id) hnext
    rw [List.nil_append, List.nil_append, passFrom.eq_2, hvisit]
    generalize p.passFrom size id back f = outcome at hrest
    show SameOutcome id _ outcome (p.passFrom (size + 1) (id + 1) back' v.next >>= _)
    generalize p.passFrom (size + 1) (id + 1) back' v.next = outcome' at hrest
    cases hrest with
    | ok hstates => exact .ok hstates.symm
    | error fault => exact .error fault
  | cons hi _ ih =>
    rw [List.length_cons] at hid
    have hvisit := p.visit_shifted hk hi id hf
    rw [shiftId_of_lt (by omega)] at hvisit
    rw [List.cons_append, List.cons_append, passFrom, passFrom]
    refine hvisit.bind fun v v' hv => ?_
    refine (ih (by omega) hv.2).bind fun states states' hstates => ?_
    refine .ok ?_
    rw [List.length_cons, List.eraseIdx_cons_succ, hv.1, hstates]

end Policy

namespace Body

variable {b : Body} {k : Nat}

/-- The pass gives every instruction the state that it had. -/
theorem analyze_insertNop (hk : k ≤ b.size) (p : Policy) :
    SameOutcome k (fun states states' => ∀ id, states'[shiftId k id]? = states[id]?)
      (b.analyze p) ((b.insertNop k).analyze p) := by
  obtain ⟨front, nop, back, hparts, hnop, hfront, hback⟩ := b.exists_parts_insertNop k
  have htake := length_take_of_le_size hk
  have hstart : 0 + (b.instructions.take k).length = k := by omega
  have hpass := p.passFrom_insertNop hk hnop hfront hback hstart (p.start_shiftedTo b k)
  rw [List.take_append_drop, htake, ← hparts] at hpass
  unfold analyze
  rw [size_insertNop]
  generalize p.passFrom b.size 0 b.instructions (p.start b) = outcome at hpass ⊢
  generalize p.passFrom (b.size + 1) 0 (b.insertNop k).instructions (p.start (b.insertNop k)) =
    outcome' at hpass ⊢
  cases hpass with
  | error fault => exact .error fault
  | @ok states states' hstates =>
    refine .ok fun id => ?_
    rw [← hstates, List.getElem?_eraseIdx]
    unfold shiftId
    split <;> rfl

theorem hasPush_insertNop (p : Policy) : (b.insertNop k).hasPush p = b.hasPush p := by
  obtain ⟨front, nop, back, hparts, hnop, hfront, hback⟩ := b.exists_parts_insertNop k
  have hany : ∀ {rest rest' : List Instruction},
      List.Forall₂ (Instruction.ShiftedTo k) rest rest' →
      (rest'.any fun i => (p.recognize i).isSome) = rest.any fun i => (p.recognize i).isSome := by
    intro rest rest' h
    induction h with
    | nil => rfl
    | cons hi _ ih => rw [List.any_cons, List.any_cons, hi.recognize_eq, ih]
  have hnone : (p.recognize nop).isSome = false := by
    rw [Policy.recognize, hnop.code]
    rfl
  unfold hasPush
  rw [hparts, List.any_append, List.any_cons, hany hfront, hany hback, hnone, Bool.false_or,
    ← List.any_append, List.take_append_drop]

theorem validate_insertNop (hk : k ≤ b.size) (p : Policy) :
    SameOutcome k Eq (b.validate p) ((b.insertNop k).validate p) := by
  unfold validate
  rw [hasPush_insertNop]
  by_cases hpush : b.hasPush p = true
  · rw [if_pos hpush, if_pos hpush]
    exact (analyze_insertNop hk p).bind fun _ _ _ => .ok rfl
  · rw [if_neg hpush, if_neg hpush]
    exact .ok rfl

/-! ## Back from a call -/

/-- A place between two instructions, before and after the `nop` was put in: where it is, the place may
be on either side of it. -/
def SamePlace (k place place' : Nat) : Prop :=
  (place ≤ k ∧ place' = place) ∨ (k ≤ place ∧ place' = place + 1)

theorem samePlace_shiftId (k id : Nat) : SamePlace k id (shiftId k id) := by
  unfold SamePlace shiftId
  split <;> omega

/-- A step back over an instruction and its renaming, if the scans agree in front of it. -/
theorem producerBefore_shifted (hk : k ≤ b.size) (call id need : Nat) (found : Option InstructionId)
    (hrest : ∀ need found, SameOutcome k (fun r r' => r'.1 = shiftId k r.1 ∧ SamePlace k r.2 r'.2)
      (b.producerBefore call id need found)
      ((b.insertNop k).producerBefore (shiftId k call) (shiftId k id) need
        (found.map (shiftId k)))) :
    SameOutcome k (fun r r' => r'.1 = shiftId k r.1 ∧ SamePlace k r.2 r'.2)
      (b.producerBefore call (id + 1) (need + 1) found)
      ((b.insertNop k).producerBefore (shiftId k call) (shiftId k id + 1) (need + 1)
        (found.map (shiftId k))) := by
  have hget := get?_insertNop hk id
  rw [producerBefore, producerBefore]
  generalize b.get? id = x at hget ⊢
  generalize (b.insertNop k).get? (shiftId k id) = x' at hget ⊢
  cases hget with
  | none => exact .error (.noProducer call)
  | @some i i' hi =>
    dsimp only
    rw [hi.effect_eq]
    refine (SameOutcome.atInstruction hi id _).bind ?_
    rintro e _ rfl
    by_cases hsurplus : need + 1 < e.pushes
    · rw [if_pos hsurplus, if_pos hsurplus]
      exact .error (.surplus call)
    · have hfound : (if need + 1 - e.pushes = 0 ∧ found.map (shiftId k) = none
            then some (shiftId k id) else found.map (shiftId k)) =
          (if need + 1 - e.pushes = 0 ∧ found = none then some id else found).map (shiftId k) := by
        cases found with
        | none => split <;> simp_all
        | some producer => simp
      rw [if_neg hsurplus, if_neg hsurplus]
      show SameOutcome k _ _ ((b.insertNop k).producerBefore _ _ _ _)
      rw [hfound]
      exact hrest _ _

theorem producerBefore_zero_insertNop (call : Nat) {place place' : Nat}
    (hplace : SamePlace k place place') (found : Option InstructionId) :
    SameOutcome k (fun r r' => r'.1 = shiftId k r.1 ∧ SamePlace k r.2 r'.2)
      (b.producerBefore call place 0 found)
      ((b.insertNop k).producerBefore (shiftId k call) place' 0 (found.map (shiftId k))) := by
  rw [producerBefore.eq_def, producerBefore.eq_def]
  cases found with
  | none => exact .error (.noProducer call)
  | some id => exact .ok ⟨rfl, hplace⟩

/-- The scan for one value finds the same instruction, and stops at the same place. -/
theorem producerBefore_insertNop (hk : k ≤ b.size) (call : Nat) {place place' : Nat}
    (hplace : SamePlace k place place') (need : Nat) (found : Option InstructionId) :
    SameOutcome k (fun r r' => r'.1 = shiftId k r.1 ∧ SamePlace k r.2 r'.2)
      (b.producerBefore call place need found)
      ((b.insertNop k).producerBefore (shiftId k call) place' need (found.map (shiftId k))) := by
  induction place' generalizing place need found with
  | zero =>
    obtain rfl : place = 0 := by unfold SamePlace at hplace; omega
    cases need with
    | zero => exact producerBefore_zero_insertNop call hplace found
    | succ need => exact .error (.noProducer call)
  | succ last ih =>
    cases need with
    | zero => exact producerBefore_zero_insertNop call hplace found
    | succ need =>
      by_cases hnop : last = k ∧ place = k
      · -- the scan steps over the `nop`, which leaves nothing and takes nothing
        obtain ⟨rfl, rfl⟩ := hnop
        rw [producerBefore_succ_of_effect? (effect?_insertNop_self hk) (Nat.zero_le _),
          if_neg (fun h => Nat.succ_ne_zero need h.1)]
        exact ih (Or.inl ⟨Nat.le_refl _, rfl⟩) (need + 1) found
      · obtain ⟨id, rfl, rfl⟩ : ∃ id, place = id + 1 ∧ last = shiftId k id := by
          unfold SamePlace at hplace
          refine ⟨place - 1, by omega, ?_⟩
          unfold shiftId
          split <;> omega
        exact producerBefore_shifted hk call id need found fun need found =>
          ih (samePlace_shiftId k id) need found

theorem producersBefore_insertNop (hk : k ≤ b.size) (call count : Nat) {place place' : Nat}
    (hplace : SamePlace k place place') (later : List InstructionId) :
    SameOutcome k (fun ps ps' => ps' = ps.map (shiftId k))
      (b.producersBefore call count place later)
      ((b.insertNop k).producersBefore (shiftId k call) count place' (later.map (shiftId k))) := by
  induction count generalizing place place' later with
  | zero => exact .ok rfl
  | succ count ih =>
    rw [producersBefore, producersBefore]
    refine (producerBefore_insertNop hk call hplace 1 none).bind ?_
    rintro ⟨id, before⟩ ⟨_, before'⟩ ⟨rfl, hbefore⟩
    exact ih hbefore (id :: later)

theorem argumentProducers_insertNop (hk : k ≤ b.size) (call : Nat) :
    SameOutcome k (fun ps ps' => ps' = ps.map (shiftId k)) (b.argumentProducers call)
      ((b.insertNop k).argumentProducers (shiftId k call)) := by
  have hget := get?_insertNop hk call
  unfold argumentProducers
  generalize b.get? call = x at hget ⊢
  generalize (b.insertNop k).get? (shiftId k call) = x' at hget ⊢
  cases hget with
  | none => exact .error (.notACall call)
  | @some i i' hi =>
    dsimp only
    rw [hi.code, hi.popCount_eq]
    by_cases hflow : i.code.flow = .call
    · rw [if_pos hflow, if_pos hflow]
      refine (SameOutcome.atInstruction hi call _).bind ?_
      rintro count _ rfl
      exact producersBefore_insertNop hk call count (samePlace_shiftId k call) []
    · rw [if_neg hflow, if_neg hflow]
      exact .error (.notACall call)

/-! ## On from a value -/

/-- The scan on from the instruction at `id`, behind which there are `height` values from the one that
is followed upwards. -/
def consumerBehind (producer id height : Nat) : List Instruction → Except Fault InstructionId
  | [] => .error (.noConsumer producer)
  | next :: rest => do
    let e ← atInstruction (id + 1) next next.effect
    if height ≤ e.pops then return id + 1
    else consumerFrom producer (id + 1) (height - e.pops) (next :: rest)

theorem consumerFrom_cons (producer id height : Nat) (i : Instruction) (rest : List Instruction) :
    consumerFrom producer id height (i :: rest) =
      (atInstruction id i i.effect >>= fun e =>
        consumerBehind producer id (height + e.pushes) rest) := by
  cases rest <;> rfl

/-- Behind the `nop` both scans go on in step. -/
theorem consumerBehind_shifted (producer : Nat) {rest rest' : List Instruction}
    (h : List.Forall₂ (Instruction.ShiftedTo k) rest rest') {id : Nat} (hid : k ≤ id + 1)
    (height : Nat) :
    SameOutcome k (fun c c' => c' = shiftId k c) (consumerBehind producer id height rest)
      (consumerBehind (shiftId k producer) (id + 1) height rest') := by
  induction h generalizing id height with
  | nil => exact .error (.noConsumer producer)
  | cons hnext _ ih =>
    rw [consumerBehind, consumerBehind, ← shiftId_of_le hid, hnext.effect_eq]
    refine (SameOutcome.atInstruction hnext (id + 1) _).bind ?_
    rintro e _ rfl
    by_cases huse : height ≤ e.pops
    · rw [if_pos huse, if_pos huse]
      exact .ok rfl
    · rw [if_neg huse, if_neg huse, consumerFrom_cons, consumerFrom_cons, hnext.effect_eq]
      refine (SameOutcome.atInstruction hnext (id + 1) _).bind ?_
      rintro e' _ rfl
      rw [shiftId_of_le hid]
      exact ih (by omega) _

/-- The scan from a place in front of the `nop` on.  The `nop` takes none of the values that are
followed, so it is not the one that uses them. -/
theorem consumerBehind_insertNop (producer : Nat) {front front' back back' : List Instruction}
    {nop : Instruction} (hnop : nop.Idle)
    (hfront : List.Forall₂ (Instruction.ShiftedTo k) front front')
    (hback : List.Forall₂ (Instruction.ShiftedTo k) back back') {id : Nat}
    (hid : id + 1 + front.length = k) {height : Nat} (hheight : 0 < height) :
    SameOutcome k (fun c c' => c' = shiftId k c) (consumerBehind producer id height (front ++ back))
      (consumerBehind (shiftId k producer) id height (front' ++ nop :: back')) := by
  induction hfront generalizing id height with
  | nil =>
    have hstep : consumerBehind (shiftId k producer) id height (nop :: back') =
        consumerBehind (shiftId k producer) (id + 1) height back' := by
      rw [consumerBehind, hnop.effect]
      show (if height ≤ 0 then _ else _) = _
      rw [if_neg (by omega), consumerFrom_cons, hnop.effect]
      rfl
    rw [List.nil_append, List.nil_append, hstep]
    exact consumerBehind_shifted producer hback (Nat.le_of_eq hid.symm) height
  | cons hnext _ ih =>
    rw [List.length_cons] at hid
    have hplace : shiftId k (id + 1) = id + 1 := shiftId_of_lt (by omega)
    have hsame := fun x : Except StackRule StackEffect =>
      SameOutcome.atInstruction hnext (id + 1) x
    rw [hplace] at hsame
    rw [List.cons_append, List.cons_append, consumerBehind, consumerBehind, hnext.effect_eq]
    refine (hsame _).bind ?_
    rintro e _ rfl
    by_cases huse : height ≤ e.pops
    · rw [if_pos huse, if_pos huse]
      exact .ok hplace.symm
    · rw [if_neg huse, if_neg huse, consumerFrom_cons, consumerFrom_cons, hnext.effect_eq]
      refine (hsame _).bind ?_
      rintro e' _ rfl
      exact ih (by omega) (by omega)

/-- The scan on from an instruction that leaves one value. -/
theorem valueConsumer_of_behind {b b' : Body} {producer : Nat} {i i' : Instruction}
    {rest rest' : List Instruction} (hrest : b.instructions.drop producer = i :: rest)
    (hrest' : b'.instructions.drop (shiftId k producer) = i' :: rest') (hi : i.ShiftedTo k i')
    (hpush : i.pushCount = .ok 1)
    (hbehind : SameOutcome k (fun c c' => c' = shiftId k c) (consumerBehind producer producer 1 rest)
      (consumerBehind (shiftId k producer) (shiftId k producer) 1 rest')) :
    SameOutcome k (fun c c' => c' = shiftId k c) (b.valueConsumer producer)
      (b'.valueConsumer (shiftId k producer)) := by
  unfold valueConsumer
  rw [hrest, hrest', consumerFrom_cons, consumerFrom_cons, hi.effect_eq]
  cases heffect : i.effect with
  | error rule =>
    show SameOutcome k _ (.error (.unrecognized producer i.code rule))
      (.error (.unrecognized (shiftId k producer) i'.code rule))
    rw [hi.code]
    exact .error (.unrecognized producer i.code rule)
  | ok e =>
    have hpushes : e.pushes = 1 :=
      Except.ok.inj (((i.effect_eq_ok_iff e).1 heffect).2.symm.trans hpush)
    show SameOutcome k _ (consumerBehind producer producer (0 + e.pushes) rest)
      (consumerBehind (shiftId k producer) (shiftId k producer) (0 + e.pushes) rest')
    rw [hpushes, Nat.zero_add]
    exact hbehind

theorem valueConsumer_insertNop (hk : k ≤ b.size) {producer : Nat} {i : Instruction}
    (hget : b.get? producer = some i) (hpush : i.pushCount = .ok 1) :
    SameOutcome k (fun c c' => c' = shiftId k c) (b.valueConsumer producer)
      ((b.insertNop k).valueConsumer (shiftId k producer)) := by
  obtain ⟨front, nop, back, hparts, hnop, hfront, hback⟩ := b.exists_parts_insertNop k
  have htake := length_take_of_le_size hk
  have hlength : front.length = k := by rw [← hfront.length_eq, htake]
  rw [get?] at hget
  by_cases hproducer : producer < k
  · -- the `nop` comes behind the value: part of the instructions in front of it are still to be passed
    have hdrop := List.forall₂_drop producer hfront
    have hhead : ((b.instructions.take k).drop producer).head? = some i := by
      rw [List.head?_drop, List.getElem?_take_of_lt hproducer, hget]
    obtain ⟨rest, hrest⟩ := List.head?_eq_some_iff.1 hhead
    have hrestLength := congrArg List.length hrest
    rw [List.length_drop, htake, List.length_cons] at hrestLength
    rw [hrest] at hdrop
    obtain ⟨i', rest', hi, hrestRel, hrest'⟩ := List.forall₂_cons_left_iff.1 hdrop
    have hold : b.instructions.drop producer = i :: (rest ++ b.instructions.drop k) := by
      rw [← List.cons_append, ← hrest, ← List.drop_append_of_le_length (by omega),
        List.take_append_drop]
    have hnew : (b.insertNop k).instructions.drop (shiftId k producer) =
        i' :: (rest' ++ nop :: back) := by
      rw [shiftId_of_lt hproducer, hparts, List.drop_append_of_le_length (by omega), hrest',
        List.cons_append]
    have hid : producer + 1 + rest.length = k := by omega
    have hbehind := consumerBehind_insertNop producer hnop hrestRel hback hid Nat.one_pos
    refine valueConsumer_of_behind hold hnew hi hpush ?_
    rwa [shiftId_of_lt hproducer] at hbehind ⊢
  · have hdrop := List.forall₂_drop (producer - k) hback
    have hplace : k + (producer - k) = producer := by omega
    have hsucc : producer + 1 - front.length = producer - k + 1 := by omega
    have hhead : ((b.instructions.drop k).drop (producer - k)).head? = some i := by
      rw [List.head?_drop, List.getElem?_drop, hplace, hget]
    obtain ⟨rest, hrest⟩ := List.head?_eq_some_iff.1 hhead
    rw [hrest] at hdrop
    obtain ⟨i', rest', hi, hrestRel, hrest'⟩ := List.forall₂_cons_left_iff.1 hdrop
    have hold : b.instructions.drop producer = i :: rest := by
      rw [← hrest, List.drop_drop, hplace]
    have hnew : (b.insertNop k).instructions.drop (shiftId k producer) = i' :: rest' := by
      rw [shiftId_of_le (by omega), hparts, List.drop_append, List.drop_eq_nil_of_le (by omega),
        List.nil_append, hsucc, List.drop_succ_cons, hrest']
    have hid : k ≤ producer + 1 := by omega
    have hbehind := consumerBehind_shifted producer hrestRel hid 1
    refine valueConsumer_of_behind hold hnew hi hpush ?_
    rwa [shiftId_of_le (by omega)] at hbehind ⊢

/-- **A `nop` is invisible.**  Put a `nop` in anywhere and rename every instruction that has moved, in
operands, handlers and questions alike.  The pass gives every instruction the state that it had, or
fails as it did; the body is accepted or refused as it was; the scan back from a call finds the renamed
producers, and the scan on from an instruction that leaves one value finds the renamed consumer, or each
of them fails as it did. -/
theorem analyses_insertNop (b : Body) (k : Nat) (hk : k ≤ b.size) (p : Policy) :
    SameOutcome k (fun states states' => ∀ id, states'[shiftId k id]? = states[id]?)
      (b.analyze p) ((b.insertNop k).analyze p) ∧
    SameOutcome k Eq (b.validate p) ((b.insertNop k).validate p) ∧
    (∀ call, SameOutcome k (fun ps ps' => ps' = ps.map (shiftId k)) (b.argumentProducers call)
      ((b.insertNop k).argumentProducers (shiftId k call))) ∧
    ∀ producer i, b.get? producer = some i → i.pushCount = .ok 1 →
      SameOutcome k (fun c c' => c' = shiftId k c) (b.valueConsumer producer)
        ((b.insertNop k).valueConsumer (shiftId k producer)) :=
  ⟨analyze_insertNop hk p, validate_insertNop hk p, argumentProducers_insertNop hk,
    fun _ _ hget hpush => valueConsumer_insertNop hk hget hpush⟩

/-- A branch on the larger of two arguments leads to a handler, which pushes the exception. -/
def branchToHandler : Body where
  name := "branchToHandler"
  instructions := [{ code := .ldarg0 }, { code := .ldarg1 },
    { code := .call, operand := .method ⟨"Math", "Max", ⟨{}, ["int32", "int32"], some "int32"⟩⟩ },
    { code := .brtrueS, operand := .target (some 5) }, { code := .ret },
    { code := .call, operand := .method ⟨"InlineIL.IL", "Push", ⟨{}, ["!!0"], none⟩⟩ }]
  handlers := [{ kind := .typed, handlerStart := some 5 }]

/-- A `nop` at the entry of the handler moves the refused push, which is still refused although the
entry now follows the `nop`.  A `nop` between the arguments moves the second of them. -/
theorem branchToHandler_with_nop :
    (branchToHandler.insertNop 5).analyze {} = .error (.taintedPush 6
      ⟨"InlineIL.IL", "Push", ⟨{}, ["!!0"], none⟩⟩
      (some "You may be able to make the IL layout safe by using IL.EnsureLocal.")) ∧
    (branchToHandler.insertNop 1).argumentProducers 3 = .ok [0, 2] ∧
    (branchToHandler.insertNop 1).valueConsumer 0 = .ok 3 := by
  obtain ⟨hanalyze, -, -, -⟩ := analyses_insertNop branchToHandler 5 (by decide) {}
  obtain ⟨-, -, hproducers, hconsumer⟩ := analyses_insertNop branchToHandler 1 (by decide) {}
  have hfault : branchToHandler.analyze {} = .error (.taintedPush 5
      ⟨"InlineIL.IL", "Push", ⟨{}, ["!!0"], none⟩⟩
      (some "You may be able to make the IL layout safe by using IL.EnsureLocal.")) := by decide
  have harguments : branchToHandler.argumentProducers 2 = .ok [0, 1] := by decide
  have hused : branchToHandler.valueConsumer 0 = .ok 2 := by decide
  have hproducers := hproducers 2
  have hconsumer := hconsumer 0 _ rfl rfl
  rw [hfault] at hanalyze
  rw [harguments] at hproducers
  rw [hused] at hconsumer
  obtain ⟨ps, hps, rfl⟩ := hproducers.exists_of_ok
  obtain ⟨c, hc, rfl⟩ := hconsumer.exists_of_ok
  exact ⟨hanalyze.eq_of_error, hps, hc⟩

end Body

end PushGuard
