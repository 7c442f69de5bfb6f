import PushGuard.Proofs.InverseScans

/-!
# The stack of producers

Going forward one can keep the stack itself, each value known by the instruction that left it
(`producerStack?`).  The scan back from a call never has this stack.  It has the number of values that
it has yet to account for, and no more.  Both agree: when the scan has accounted for `need` values, it
stands at a place where the stack was the same without its top `need` values
(`producerBefore_some_of_stack`), and what it has found is the producer of the last of them
(`producerBefore_of_stack`).  So the arguments of a call are the top of the stack, and where the stack
is too short the scan comes to the start of the body.
-/

namespace PushGuard

namespace Body

/-- The stack behind an instruction, if its effect is known and the stack has what it takes.  The top
value comes first. -/
def stackBehind? (b : Body) (stack : List InstructionId) (id : InstructionId) :
    Option (List InstructionId) :=
  (b.effect? id).bind fun e =>
    if e.pops ≤ stack.length then some (List.replicate e.pushes id ++ stack.drop e.pops) else none

/-- The producers of the values on the stack before `place`, if the instructions from `start` on run
one after the other from an empty stack.  There are none if one of these instructions has an unknown
effect or takes more than is there. -/
def producerStack? (b : Body) (start : Nat) : (place : Nat) → Option (List InstructionId)
  | 0 => some []
  | last + 1 =>
    if last < start then some []
    else (b.producerStack? start last).bind fun stack => b.stackBehind? stack last

theorem stackBehind?_eq_some_iff (b : Body) (below stack : List InstructionId) (id : InstructionId) :
    b.stackBehind? below id = some stack ↔ ∃ e, b.effect? id = some e ∧ e.pops ≤ below.length ∧
      stack = List.replicate e.pushes id ++ below.drop e.pops := by
  unfold stackBehind?
  rw [Option.bind_eq_some_iff]
  refine exists_congr fun e => and_congr_right fun _ => ?_
  by_cases hpops : e.pops ≤ below.length
  · simp [hpops, eq_comm]
  · simp [hpops]

theorem le_of_producerStack?_ne_nil {b : Body} {start last : Nat} {stack : List InstructionId}
    (h : b.producerStack? start (last + 1) = some stack) (hne : stack ≠ []) : start ≤ last := by
  rw [producerStack?] at h
  by_cases hstart : last < start
  · rw [if_pos hstart] at h
    exact absurd (Option.some.inj h).symm hne
  · omega

/-- What is on the stack behind an instruction was left by it, or lay below what it took. -/
theorem exists_below_of_producerStack? {b : Body} {start last : Nat} {stack : List InstructionId}
    (h : b.producerStack? start (last + 1) = some stack) (hstart : start ≤ last) :
    ∃ below e, b.producerStack? start last = some below ∧ b.effect? last = some e ∧
      e.pops ≤ below.length ∧ stack = List.replicate e.pushes last ++ below.drop e.pops := by
  rw [producerStack?, if_neg (by omega)] at h
  obtain ⟨below, hbelow, hbehind⟩ := Option.bind_eq_some_iff.1 h
  obtain ⟨e, he, hpops, hstack⟩ := (b.stackBehind?_eq_some_iff below stack last).1 hbehind
  exact ⟨below, e, hbelow, he, hpops, hstack⟩

theorem pushes_le_one_of_effect? {b : Body} {id : Nat} {e : StackEffect}
    (h : b.effect? id = some e) : e.pushes ≤ 1 := by
  obtain ⟨i, -, he⟩ := (b.effect?_eq_some_iff id e).1 h
  exact Instruction.pushes_le_one he

theorem drop_replicate_append_drop {α : Type} (x : α) (below : List α) {pushes pops need : Nat}
    (h : pushes ≤ need) :
    (List.replicate pushes x ++ below.drop pops).drop need = below.drop (need - pushes + pops) := by
  have hnil : (List.replicate pushes x).drop need = [] := by
    rw [List.drop_eq_nil_iff, List.length_replicate]
    exact h
  rw [List.drop_append, hnil, List.nil_append, List.length_replicate, List.drop_drop, Nat.add_comm]

/-! ## The scan for one value -/

/-- A step back over an instruction of known effect. -/
theorem producerBefore_succ_of_effect? {b : Body} {id need : Nat} {e : StackEffect}
    (he : b.effect? id = some e) (hpushes : e.pushes ≤ need + 1) (call : InstructionId)
    (found : Option InstructionId) :
    b.producerBefore call (id + 1) (need + 1) found =
      b.producerBefore call id (need + 1 - e.pushes + e.pops)
        (if need + 1 - e.pushes = 0 ∧ found = none then some id else found) := by
  obtain ⟨i, hget, heffect⟩ := (b.effect?_eq_some_iff id e).1 he
  have hsurplus : ¬ need + 1 < e.pushes := by omega
  rw [producerBefore, hget]
  simp only [heffect, atInstruction, bind, Except.bind, if_neg hsurplus]

/-- The scan that has found its producer goes on until the stack has lost the values that it needs. -/
theorem producerBefore_some_of_stack {b : Body} {start place : Nat} {stack : List InstructionId}
    (hstack : b.producerStack? start place = some stack) {need : Nat} (hneed : need ≤ stack.length)
    (call id : InstructionId) :
    ∃ before, b.producerBefore call place need (some id) = .ok (id, before) ∧
      b.producerStack? start before = some (stack.drop need) := by
  induction place generalizing need stack with
  | zero =>
    obtain rfl : [] = stack := Option.some.inj hstack
    obtain rfl : need = 0 := by simpa using hneed
    exact ⟨0, rfl, rfl⟩
  | succ last ih =>
    cases need with
    | zero => exact ⟨last + 1, by rw [producerBefore], by rw [List.drop_zero]; exact hstack⟩
    | succ need =>
      have hne : stack ≠ [] := by
        intro hnil
        rw [hnil] at hneed
        simp at hneed
      obtain ⟨below, e, hbelow, he, hpops, rfl⟩ :=
        exists_below_of_producerStack? hstack (le_of_producerStack?_ne_nil hstack hne)
      have hone := pushes_le_one_of_effect? he
      have hpushes : e.pushes ≤ need + 1 := by omega
      have hbelowNeed : need + 1 - e.pushes + e.pops ≤ below.length := by
        simp only [List.length_append, List.length_replicate, List.length_drop] at hneed
        omega
      obtain ⟨before, hscan, hbefore⟩ := ih hbelow hbelowNeed
      refine ⟨before, ?_, ?_⟩
      · rw [producerBefore_succ_of_effect? he hpushes, if_neg (by simp)]
        exact hscan
      · rw [drop_replicate_append_drop last below hpushes]
        exact hbefore

/-- The scan that looks for the value under the top `need` ones finds who left it, and stops where the
stack was what lies below. -/
theorem producerBefore_of_stack {b : Body} {start place : Nat} {stack : List InstructionId}
    (hstack : b.producerStack? start place = some stack) {need : Nat} {id : InstructionId}
    {rest : List InstructionId} (hneed : stack.drop need = id :: rest) (call : InstructionId) :
    ∃ before, b.producerBefore call place (need + 1) none = .ok (id, before) ∧
      b.producerStack? start before = some rest := by
  have hne : stack ≠ [] := by
    intro hnil
    rw [hnil] at hneed
    simp at hneed
  induction place generalizing need stack with
  | zero => exact absurd (Option.some.inj hstack).symm hne
  | succ last ih =>
    obtain ⟨below, e, hbelow, he, hpops, rfl⟩ :=
      exists_below_of_producerStack? hstack (le_of_producerStack?_ne_nil hstack hne)
    have hone := pushes_le_one_of_effect? he
    have hpushes : e.pushes ≤ need + 1 := by omega
    rw [producerBefore_succ_of_effect? he hpushes]
    by_cases hlast : need + 1 - e.pushes = 0
    · -- the value looked for is the one that `last` leaves; its ingredients are still to be passed
      have hneedZero : need = 0 := by omega
      have hpushesOne : e.pushes = 1 := by omega
      rw [hneedZero, hpushesOne, List.drop_zero, List.replicate_one] at hneed
      obtain ⟨rfl, rfl⟩ := List.cons.inj hneed
      obtain ⟨before, hscan, hbefore⟩ := producerBefore_some_of_stack hbelow hpops call last
      refine ⟨before, ?_, hbefore⟩
      rw [if_pos ⟨hlast, rfl⟩, hlast, Nat.zero_add]
      exact hscan
    · have hle : e.pushes ≤ need := by omega
      rw [drop_replicate_append_drop last below hle] at hneed
      have hbelowNe : below ≠ [] := by
        intro hnil
        rw [hnil] at hneed
        simp at hneed
      obtain ⟨before, hscan, hbefore⟩ := ih hbelow hneed hbelowNe
      refine ⟨before, ?_, hbefore⟩
      have hsucc : need + 1 - e.pushes + e.pops = need - e.pushes + e.pops + 1 := by omega
      rw [if_neg (fun hfound => hlast hfound.1), hsucc]
      exact hscan

/-- From the start of the body the scan cannot account for more values than are on the stack. -/
theorem producerBefore_of_short_stack {b : Body} {place : Nat} {stack : List InstructionId}
    (hstack : b.producerStack? 0 place = some stack) {need : Nat} (hneed : stack.length < need)
    (call : InstructionId) (found : Option InstructionId) :
    b.producerBefore call place need found = .error (.noProducer call) := by
  induction place generalizing need stack found with
  | zero =>
    cases need with
    | zero => omega
    | succ need => rw [producerBefore]
  | succ last ih =>
    cases need with
    | zero => omega
    | succ need =>
      obtain ⟨below, e, hbelow, he, hpops, rfl⟩ :=
        exists_below_of_producerStack? hstack (Nat.zero_le last)
      have hone := pushes_le_one_of_effect? he
      rw [producerBefore_succ_of_effect? he (by omega)]
      apply ih hbelow
      simp only [List.length_append, List.length_replicate, List.length_drop] at hneed
      omega

/-! ## The scan for all arguments -/

theorem producersBefore_of_stack {b : Body} {start place count : Nat} {stack : List InstructionId}
    (hstack : b.producerStack? start place = some stack) (hcount : count ≤ stack.length)
    (call : InstructionId) (later : List InstructionId) :
    b.producersBefore call count place later = .ok ((stack.take count).reverse ++ later) := by
  induction count generalizing place stack later with
  | zero => simp [producersBefore]
  | succ count ih =>
    cases stack with
    | nil => simp at hcount
    | cons top rest =>
      obtain ⟨before, hscan, hbefore⟩ := producerBefore_of_stack hstack (List.drop_zero) call
      have hrest := ih hbefore (Nat.le_of_succ_le_succ hcount) (top :: later)
      rw [producersBefore, hscan]
      show b.producersBefore call count before (top :: later) = _
      rw [hrest, List.take_succ_cons, List.reverse_cons, List.append_assoc]
      rfl

theorem producersBefore_of_short_stack {b : Body} {place count : Nat} {stack : List InstructionId}
    (hstack : b.producerStack? 0 place = some stack) (hcount : stack.length < count)
    (call : InstructionId) (later : List InstructionId) :
    b.producersBefore call count place later = .error (.noProducer call) := by
  induction count generalizing place stack later with
  | zero => omega
  | succ count ih =>
    rw [producersBefore]
    cases stack with
    | nil =>
      rw [producerBefore_of_short_stack hstack Nat.one_pos]
      rfl
    | cons top rest =>
      obtain ⟨before, hscan, hbefore⟩ := producerBefore_of_stack hstack (List.drop_zero) call
      rw [hscan]
      exact ih hbefore (Nat.lt_of_succ_lt_succ hcount) (top :: later)

/-- A call whose signature is known looks for as many producers as it has arguments. -/
theorem argumentProducers_of_signature {b : Body} {call : InstructionId} {i : Instruction}
    {sig : Signature} (hget : b.get? call = some i) (hflow : i.code.flow = .call)
    (hsig : i.operand.signature? = some sig) :
    b.argumentProducers call = b.producersBefore call (argumentCount i.code sig) call [] := by
  have hcount : i.popCount = .ok (argumentCount i.code sig) := by
    rw [Instruction.popCount, if_pos hflow, hsig]
  rw [argumentProducers, hget]
  show (if i.code.flow = .call then _ else _) = _
  rw [if_pos hflow, hcount]
  rfl

/-- **The arguments of a call are the top of the stack.**  Run the instructions in front of a call from
any place on, with an empty stack that holds the producers of its values.  If this gets to the call with
a value for each argument, the scan back from the call finds the top of the stack, the deepest value
first, whatever stands in front of that place.  If it started with the body and gets there with too few
values, the scan finds that an argument has no producer. -/
theorem argumentProducers_eq_top_of_stack (b : Body) (call : InstructionId) (i : Instruction)
    (sig : Signature) (hget : b.get? call = some i) (hflow : i.code.flow = .call)
    (hsig : i.operand.signature? = some sig) (start : Nat) (stack : List InstructionId)
    (hstack : b.producerStack? start call = some stack) :
    (argumentCount i.code sig ≤ stack.length →
      b.argumentProducers call = .ok (stack.take (argumentCount i.code sig)).reverse) ∧
    (start = 0 → stack.length < argumentCount i.code sig →
      b.argumentProducers call = .error (.noProducer call)) := by
  rw [argumentProducers_of_signature hget hflow hsig]
  constructor
  · intro hcount
    rw [producersBefore_of_stack hstack hcount, List.append_nil]
  · rintro rfl hcount
    exact producersBefore_of_short_stack hstack hcount call []

/-- Two nested calls behind instructions that nothing is known of. -/
def callsBehindUnknown : Body where
  name := "callsBehindUnknown"
  instructions := [{ code := .calli }, { code := .pop }, { code := .ldarg0 }, { code := .ldarg1 },
    { code := .dup },
    { code := .call, operand := .method ⟨"Math", "Max", ⟨{}, ["int32", "int32"], some "int32"⟩⟩ },
    { code := .nop },
    { code := .call, operand := .method ⟨"Console", "Write", ⟨{}, ["int32", "int32"], none⟩⟩ }]
  handlers := []

/-- The arguments of the outer call are found from the third instruction on.  The result of the inner
call alone is not enough for it: the same calls without the first value have an argument missing. -/
theorem callsBehindUnknown_arguments :
    callsBehindUnknown.producerStack? 2 7 = some [5, 2] ∧
      callsBehindUnknown.argumentProducers 7 = .ok [2, 5] ∧
      ({ callsBehindUnknown with instructions := callsBehindUnknown.instructions.drop 3 } :
        Body).argumentProducers 4 = .error (.noProducer 4) := by
  have hstack : callsBehindUnknown.producerStack? 2 7 = some [5, 2] := by decide
  refine ⟨hstack, ?_, ?_⟩
  · exact (argumentProducers_eq_top_of_stack callsBehindUnknown 7 _ _ rfl rfl rfl 2 _ hstack).1
      (by decide)
  · exact (argumentProducers_eq_top_of_stack _ 4 _ _ rfl rfl rfl 0 [2] rfl).2 rfl (by decide)

end Body

end PushGuard
