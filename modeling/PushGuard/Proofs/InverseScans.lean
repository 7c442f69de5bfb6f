import PushGuard.Analysis.Scan
import PushGuard.Proofs.Heights
import PushGuard.Proofs.Results

/-!
# The two scans are inverse

The scan back from a call keeps the number of values that it has yet to account for, the scan on
from a producer the number of values above the one it follows.  Both numbers are differences of
heights of the stack.  So the scan back finds the producers whose values are on the stack before the
call and lie no lower than the call's floor (`mem_of_producersBefore`), and the scan on stops at the
first instruction that goes down to the floor of the producer (`valueConsumer_eq_ok_iff`).
-/

namespace PushGuard

theorem atInstruction_eq_ok_iff {α : Type} (id : InstructionId) (i : Instruction)
    (x : Except StackRule α) (a : α) : atInstruction id i x = .ok a ↔ x = .ok a := by
  cases x with
  | error rule => simp [atInstruction]
  | ok a' => simp [atInstruction]

namespace Body

/-! ## Back from a call -/

/-- A step back: the instruction leaves no more values than are looked for, and those that it takes
are looked for in their place. -/
theorem producerBefore_succ_eq_ok_iff (b : Body) (call : InstructionId) (id need : Nat)
    (found : Option InstructionId) (r : InstructionId × Nat) :
    b.producerBefore call (id + 1) (need + 1) found = .ok r ↔
      ∃ e, b.effect? id = some e ∧ e.pushes ≤ need + 1 ∧
        b.producerBefore call id (need + 1 - e.pushes + e.pops)
          (if need + 1 - e.pushes = 0 ∧ found = none then some id else found) = .ok r := by
  rw [producerBefore]
  cases hget : b.get? id with
  | none => simp [effect?, hget]
  | some i =>
    rw [bind_eq_ok_iff]
    refine exists_congr fun e => ?_
    rw [atInstruction_eq_ok_iff, effect?_eq_some_iff]
    simp only [hget, Option.some.injEq, exists_eq_left']
    refine and_congr_right fun _ => ?_
    by_cases hsurplus : need + 1 < e.pushes
    · simp [hsurplus, Nat.not_le.2 hsurplus]
    · simp [hsurplus, Nat.not_lt.1 hsurplus]

/-- Once the instruction that left the value is found, the scan goes back over its ingredients. -/
theorem spans_of_producerBefore_some (b : Body) (call id : InstructionId) (place need : Nat)
    (r : InstructionId × Nat) (h : b.producerBefore call place need (some id) = .ok r) :
    r.1 = id ∧ b.Spans r.2 place (b.height place - need) := by
  induction place generalizing need with
  | zero =>
    cases need with
    | zero =>
      obtain rfl : (id, 0) = r := by simpa [producerBefore] using h
      exact ⟨rfl, by simpa using Spans.refl b 0⟩
    | succ need => simp [producerBefore] at h
  | succ last ih =>
    cases need with
    | zero =>
      obtain rfl : (id, last + 1) = r := by simpa [producerBefore] using h
      exact ⟨rfl, by simpa using Spans.refl b (last + 1)⟩
    | succ need =>
      obtain ⟨e, he, hpushes, hrest⟩ := (producerBefore_succ_eq_ok_iff ..).1 h
      rw [if_neg (by simp)] at hrest
      obtain ⟨hid, hspan⟩ := ih _ hrest
      obtain ⟨hlevel, hfloor⟩ := height_succ_sub he hpushes
      rw [← hlevel] at hspan
      exact ⟨hid, hspan.succ ⟨e, he⟩ (by omega)⟩

/-- The scan that looks for `need` values finds the instruction that left the deepest of them, and
stops in front of its first ingredient. -/
theorem survives_of_producerBefore (b : Body) (call : InstructionId) (place need : Nat)
    (r : InstructionId × Nat) (hneed : 0 < need)
    (h : b.producerBefore call place need none = .ok r) :
    b.Survives r.1 place ∧ b.floor r.1 = b.height place - need ∧
      b.Spans r.2 place (b.height place - need) := by
  induction place generalizing need with
  | zero =>
    cases need with
    | zero => omega
    | succ need => simp [producerBefore] at h
  | succ last ih =>
    cases need with
    | zero => omega
    | succ need =>
      obtain ⟨e, he, hpushes, hrest⟩ := (producerBefore_succ_eq_ok_iff ..).1 h
      obtain ⟨hlevel, hfloor⟩ := height_succ_sub he hpushes
      by_cases hleft : need + 1 - e.pushes = 0
      · -- the instruction leaves all that is looked for, the deepest value included
        rw [if_pos ⟨hleft, rfl⟩] at hrest
        obtain ⟨hid, hspan⟩ := spans_of_producerBefore_some b call last last _ r hrest
        rw [← hlevel] at hspan
        rw [hid]
        have hpush : 0 < (b.effectAt last).pushes := by
          rw [effectAt_of_effect? he]
          omega
        exact ⟨Survives.start hpush, by omega, hspan.succ ⟨e, he⟩ (by omega)⟩
      · rw [if_neg (fun hfound => hleft hfound.1)] at hrest
        obtain ⟨hsurvives, hid, hspan⟩ := ih _ (by omega) hrest
        rw [← hlevel] at hid hspan
        exact ⟨hsurvives.succ (by omega), hid, hspan.succ ⟨e, he⟩ (by omega)⟩

/-- The scan for `count` values finds the producers of those on the stack that are at most `count`
deep. -/
theorem mem_of_producersBefore (b : Body) (call : InstructionId) (count place : Nat)
    (later ps : List InstructionId) (h : b.producersBefore call count place later = .ok ps) :
    ∃ found first, ps = found ++ later ∧ b.Spans first place (b.height place - count) ∧
      ∀ id, id ∈ found ↔ b.Survives id place ∧ b.height place - count ≤ b.floor id := by
  induction count generalizing place later with
  | zero =>
    obtain rfl : later = ps := by simpa [producersBefore] using h
    refine ⟨[], place, rfl, by simpa using Spans.refl b place, fun id => ?_⟩
    constructor
    · intro hid
      cases hid
    · rintro ⟨hsurvives, hlevel⟩
      have := hsurvives.floor_lt_height
      omega
  | succ count ih =>
    rw [producersBefore, bind_eq_ok_iff] at h
    obtain ⟨⟨last, before⟩, hlast, hrest⟩ := h
    obtain ⟨hsurvives, hfloor, hspan⟩ :
        b.Survives last place ∧ b.floor last = b.height place - 1 ∧
          b.Spans before place (b.height place - 1) :=
      survives_of_producerBefore b call place 1 _ Nat.one_pos hlast
    obtain ⟨found, first, rfl, hfirst, hfound⟩ := ih before (last :: later) hrest
    have hbefore : b.height before = b.height place - 1 := hspan.height_first
    have hlevel : b.height before - count = b.height place - (count + 1 : Nat) := by omega
    rw [hlevel] at hfirst hfound
    refine ⟨found ++ [last], first, by simp, hfirst.trans hspan (by omega), fun id => ?_⟩
    rw [List.mem_append, List.mem_singleton, hfound]
    constructor
    · rintro (⟨hid, hidLevel⟩ | rfl)
      · exact ⟨hspan.survives hid, hidLevel⟩
      · exact ⟨hsurvives, by omega⟩
    · rintro ⟨hid, hidLevel⟩
      rcases Nat.lt_or_ge id before with hlt | hge
      · exact Or.inl ⟨hid.of_le hlt hspan.le, hidLevel⟩
      · -- behind `before` there is one value on the stack, at the level of the last one
        have hlow := hspan.level_le id hge hid.lt
        have hhigh := hid.floor_lt_height
        exact Or.inr (hid.eq_of_floor_eq hsurvives (by omega))

/-! ## On from a producer -/

/-- A step on: the next instruction uses all the values from the one looked for upwards, or leaves
it where it is. -/
theorem consumerFrom_eq_ok_iff (b : Body) (producer id c : InstructionId) (height : Nat) :
    consumerFrom producer id height (b.instructions.drop id) = .ok c ↔
      ∃ e, b.effect? id = some e ∧ ∃ next, b.effect? (id + 1) = some next ∧
        if height + e.pushes ≤ next.pops then c = id + 1
        else consumerFrom producer (id + 1) (height + e.pushes - next.pops)
          (b.instructions.drop (id + 1)) = .ok c := by
  rw [← List.tail_drop]
  have hget : b.get? id = (b.instructions.drop id).head? := by simp [get?]
  have hnext : b.get? (id + 1) = (b.instructions.drop id).tail.head? := by simp [get?]
  cases hrest : b.instructions.drop id with
  | nil =>
    rw [hrest] at hget
    simp [consumerFrom, effect?, hget]
  | cons i rest =>
    rw [hrest] at hget hnext
    rw [consumerFrom.eq_def, bind_eq_ok_iff]
    refine exists_congr fun e => ?_
    rw [atInstruction_eq_ok_iff, effect?_eq_some_iff, hget]
    cases rest with
    | nil => simp [effect?, hnext]
    | cons next rest =>
      simp only [bind_eq_ok_iff, atInstruction_eq_ok_iff, effect?_eq_some_iff, hnext,
        List.head?_cons, List.tail_cons, Option.some.injEq, exists_eq_left']
      refine and_congr_right fun _ => exists_congr fun e' => and_congr_right fun _ => ?_
      by_cases huse : height + e.pushes ≤ e'.pops
      · rw [if_pos huse, if_pos huse]
        exact ⟨fun h => (Except.ok.inj h).symm, fun h => congrArg Except.ok h.symm⟩
      · rw [if_neg huse, if_neg huse]

/-- The scan on that has `height` values above a level stops at the first instruction that goes
down to this level. -/
theorem consumerFrom_eq_ok_iff_firstDrop (b : Body) (producer : InstructionId)
    (id c height : Nat) (level : Int) (hheight : b.floor id = level + height) :
    consumerFrom producer id height (b.instructions.drop id) = .ok c ↔
      b.FirstDrop id c level := by
  induction hrest : b.instructions.drop id generalizing id height with
  | nil =>
    have hnone : b.get? id = none := by
      rw [get?, ← List.head?_drop, hrest, List.head?_nil]
    rw [firstDrop_iff]
    simp [consumerFrom, effect?, hnone]
  | cons i rest ih =>
    have htail : b.instructions.drop (id + 1) = rest := by
      rw [← List.tail_drop, hrest, List.tail_cons]
    rw [← hrest, consumerFrom_eq_ok_iff, firstDrop_iff, htail]
    refine exists_congr fun e => and_congr_right fun he => ?_
    refine exists_congr fun next => and_congr_right fun hnext => ?_
    have hfloor := floor_succ he hnext
    by_cases huse : height + e.pushes ≤ next.pops
    · rw [if_pos huse, if_pos (by omega)]
    · rw [if_neg huse, if_neg (by omega)]
      exact ih (id + 1) _ (by omega) htail

theorem valueConsumer_eq_ok_iff (b : Body) (producer c : InstructionId) :
    b.valueConsumer producer = .ok c ↔ b.FirstDrop producer c (b.floor producer) :=
  b.consumerFrom_eq_ok_iff_firstDrop producer producer c 0 (b.floor producer) (by simp)

/-! ## Both ways -/

/-- The arguments of a call are the values on the stack before it that lie no lower than its
floor. -/
theorem exists_spans_of_argumentProducers (b : Body) (call : InstructionId)
    (ps : List InstructionId) (h : b.argumentProducers call = .ok ps) :
    ∃ first, b.Spans first call (b.floor call) ∧ (∃ e, b.effect? call = some e) ∧
      ∀ id, id ∈ ps ↔ b.Survives id call ∧ b.floor call ≤ b.floor id := by
  unfold argumentProducers at h
  cases hget : b.get? call with
  | none =>
    rw [hget] at h
    cases h
  | some i =>
    rw [hget] at h
    dsimp only at h
    by_cases hcall : i.code.flow = .call
    · rw [if_pos hcall, bind_eq_ok_iff] at h
      obtain ⟨count, hcount, hscan⟩ := h
      rw [atInstruction_eq_ok_iff] at hcount
      obtain ⟨e, he, rfl⟩ := i.exists_effect_of_popCount hcount
      have heffect := (b.effect?_eq_some_iff call e).2 ⟨i, hget, he⟩
      obtain ⟨found, first, hps, hspan, hfound⟩ := b.mem_of_producersBefore call _ call [] ps hscan
      have hfloor : b.floor call = b.height call - e.pops := by
        rw [floor, effectAt_of_effect? heffect]
      rw [List.append_nil] at hps
      rw [hps, hfloor]
      exact ⟨first, hspan, ⟨e, heffect⟩, hfound⟩
    · rw [if_neg hcall] at h
      cases h

/-- The producers of a call's arguments are the instructions that leave a value to which the call is
the first to go down. -/
theorem mem_argumentProducers_iff_firstDrop (b : Body) (call : InstructionId)
    (ps : List InstructionId) (h : b.argumentProducers call = .ok ps) (id : Nat) :
    id ∈ ps ↔ 0 < (b.effectAt id).pushes ∧ b.FirstDrop id call (b.floor id) := by
  obtain ⟨first, hspan, hcall, hmem⟩ := b.exists_spans_of_argumentProducers call ps h
  rw [hmem]
  constructor
  · rintro ⟨hsurvives, hfloor⟩
    have hfirst := hspan.first_le hsurvives hfloor
    refine ⟨hsurvives.pushes, hsurvives.lt, fun j hj hle => ?_, hsurvives.above, hfloor⟩
    rcases Nat.lt_or_eq_of_le hle with hlt | rfl
    · exact hspan.known j (Nat.le_trans hfirst hj) hlt
    · exact hcall
  · rintro ⟨hpushes, hdrop⟩
    exact ⟨⟨hdrop.lt, hpushes, hdrop.above⟩, hdrop.floor_le⟩

/-- The scans back and on are inverse to each other: of all instructions that leave one value, those
found from a call are the ones from which the call is found. -/
theorem mem_argumentProducers_iff_valueConsumer (b : Body) (call : InstructionId)
    (ps : List InstructionId) (h : b.argumentProducers call = .ok ps) (producer : InstructionId)
    (i : Instruction) (hget : b.get? producer = some i) (hpush : i.pushCount = .ok 1) :
    producer ∈ ps ↔ b.valueConsumer producer = .ok call := by
  rw [b.mem_argumentProducers_iff_firstDrop call ps h, valueConsumer_eq_ok_iff]
  refine and_iff_right_of_imp fun hdrop => ?_
  obtain ⟨e, he⟩ := hdrop.known producer (Nat.le_refl _) (Nat.le_of_lt hdrop.lt)
  obtain ⟨i', hget', heffect⟩ := (b.effect?_eq_some_iff producer e).1 he
  obtain rfl : i = i' := Option.some.inj (hget.symm.trans hget')
  have hpushes : 1 = e.pushes :=
    Except.ok.inj (hpush.symm.trans ((i.effect_eq_ok_iff e).1 heffect).2)
  rw [effectAt_of_effect? he, ← hpushes]
  exact Nat.one_pos

/-- The result of one call is an argument of another; `dup` leaves an argument of the first. -/
def nestedCalls : Body where
  name := "nestedCalls"
  instructions := [{ code := .ldarg0 }, { code := .ldarg1 }, { code := .dup },
    { code := .call, operand := .method ⟨"Math", "Max", ⟨{}, ["int32", "int32"], some "int32"⟩⟩ },
    { code := .call, operand := .method ⟨"Console", "Write", ⟨{}, ["int32", "int32"], none⟩⟩ },
    { code := .ret }]
  handlers := []

theorem nestedCalls_consumed : nestedCalls.argumentProducers 4 = .ok [0, 3] ∧
    nestedCalls.valueConsumer 0 = .ok 4 ∧ nestedCalls.valueConsumer 1 ≠ .ok 4 := by
  have hproducers : nestedCalls.argumentProducers 4 = .ok [0, 3] := rfl
  have hfirst := nestedCalls.mem_argumentProducers_iff_valueConsumer 4 _ hproducers 0 _ rfl rfl
  have hsecond := nestedCalls.mem_argumentProducers_iff_valueConsumer 4 _ hproducers 1 _ rfl rfl
  exact ⟨hproducers, hfirst.1 (by decide), mt hsecond.2 (by decide)⟩

end Body

end PushGuard
