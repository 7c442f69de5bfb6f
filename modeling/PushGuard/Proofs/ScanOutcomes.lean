import Mathlib.Logic.Relation
import PushGuard.Proofs.ProducerStack

/-!
# How the scan back from a call ends

The scan consists of two loops that go on from one place.  The outer one takes the arguments from the last to
the first, the inner one goes back over the instructions that an argument was made by.  `ScanPoint` is where
the loops stand, `Turn` what one turn of them does, and `Ends` says which points have no turn and what comes
out there.  There are two more kinds of points without a turn (`DeadEnd`), but the scan never comes to them.
A turn keeps the producers in order and in front of the call (`Turn.sound`), and a sound point that has no
turn is an end (`turn_or_ends_of_sound`).
-/

namespace PushGuard

/-- Where the scan back from a call stands.  The instructions from `place` on have been passed, `later` are
the producers found among them, and `missing` arguments have not been looked for. -/
inductive ScanPoint
  /-- In front of an argument, or of none. -/
  | between (place missing : Nat) (later : List InstructionId)
  /-- On the way through an argument: `need` values are to be accounted for, and `found` has left it. -/
  | within (place need : Nat) (found : Option InstructionId) (missing : Nat)
      (later : List InstructionId)

namespace Body

/-- One turn of the scan's loops. -/
inductive Turn (b : Body) : ScanPoint → ScanPoint → Prop
  | argument (place missing : Nat) (later : List InstructionId) :
    Turn b (.between place (missing + 1) later) (.within place 1 none missing later)
  | back {id : Nat} {e : StackEffect} (need : Nat) (found : Option InstructionId) (missing : Nat)
      (later : List InstructionId) (he : b.effect? id = some e) (hpushes : e.pushes ≤ need + 1) :
    Turn b (.within (id + 1) (need + 1) found missing later)
      (.within id (need + 1 - e.pushes + e.pops)
        (if need + 1 - e.pushes = 0 ∧ found = none then some id else found) missing later)
  | producer (place id missing : Nat) (later : List InstructionId) :
    Turn b (.within place 0 (some id) missing later) (.between place missing (id :: later))

/-- What comes out at a point that has no turn: the scan has found all producers, has come to the start of
the body, or to an instruction of unknown effect. -/
inductive Ends (b : Body) (call : InstructionId) :
    ScanPoint → Except Fault (List InstructionId) → Prop
  | complete (place : Nat) (later : List InstructionId) : Ends b call (.between place 0 later) (.ok later)
  | atStart (need : Nat) (found : Option InstructionId) (missing : Nat) (later : List InstructionId) :
    Ends b call (.within 0 (need + 1) found missing later) (.error (.noProducer call))
  | unknown {id : Nat} {i : Instruction} {rule : StackRule} (need : Nat) (found : Option InstructionId)
      (missing : Nat) (later : List InstructionId) (hget : b.get? id = some i)
      (hrule : i.effect = .error rule) :
    Ends b call (.within (id + 1) (need + 1) found missing later) (.error (.unrecognized id i.code rule))

/-- The two ways in which the inner loop could break off, with the fault that would come out: all is accounted
for but nothing was found, or an instruction leaves more than is looked for. -/
inductive DeadEnd (b : Body) (call : InstructionId) : ScanPoint → Fault → Prop
  | unfound (place missing : Nat) (later : List InstructionId) :
    DeadEnd b call (.within place 0 none missing later) (.noProducer call)
  | surplus {id : Nat} {e : StackEffect} (need : Nat) (found : Option InstructionId) (missing : Nat)
      (later : List InstructionId) (he : b.effect? id = some e) (hpushes : need + 1 < e.pushes) :
    DeadEnd b call (.within (id + 1) (need + 1) found missing later) (.surplus call)

/-- The scan for the producers of `count` arguments comes to this point. -/
def ScanReaches (b : Body) (call : InstructionId) (count : Nat) (s : ScanPoint) : Prop :=
  Relation.ReflTransGen b.Turn (.between call count []) s

/-- What the scan gives when it goes on from a point. -/
def resume (b : Body) (call : InstructionId) : ScanPoint → Except Fault (List InstructionId)
  | .between place missing later => b.producersBefore call missing place later
  | .within place need found missing later =>
    (b.producerBefore call place need found).bind fun r =>
      b.producersBefore call missing r.2 (r.1 :: later)

theorem resume_within (b : Body) (call : InstructionId) (place need : Nat)
    (found : Option InstructionId) (missing : Nat) (later : List InstructionId) :
    b.resume call (.within place need found missing later) =
      (b.producerBefore call place need found).bind fun r =>
        b.producersBefore call missing r.2 (r.1 :: later) := rfl

theorem Turn.resume_eq {b : Body} {s t : ScanPoint} (h : b.Turn s t) (call : InstructionId) :
    b.resume call s = b.resume call t := by
  cases h with
  | argument place missing later =>
    show b.producersBefore call (missing + 1) place later = _
    rw [producersBefore]
    rfl
  | back need found missing later he hpushes =>
    rw [resume_within, resume_within, producerBefore_succ_of_effect? he hpushes]
  | producer place id missing later =>
    rw [resume_within, producerBefore]
    rfl

theorem ScanReaches.resume_eq {b : Body} {call : InstructionId} {count : Nat} {s : ScanPoint}
    (h : b.ScanReaches call count s) : b.resume call s = b.producersBefore call count call [] := by
  induction h with
  | refl => rfl
  | tail _ hturn ih => rw [← ih, hturn.resume_eq call]

theorem DeadEnd.resume_eq {b : Body} {call : InstructionId} {s : ScanPoint} {fault : Fault}
    (h : b.DeadEnd call s fault) : b.resume call s = .error fault := by
  cases h with
  | unfound place missing later =>
    rw [resume_within, producerBefore]
    rfl
  | @surplus id e need found missing later he hpushes =>
    obtain ⟨i, hget, heffect⟩ := (b.effect?_eq_some_iff id e).1 he
    rw [resume_within, producerBefore, hget]
    simp only [heffect, atInstruction, bind, Except.bind, if_pos hpushes]

end Body

/-! ## What the scan keeps -/

namespace ScanPoint

/-- The instructions stand one behind the other from `place` on, in front of the call. -/
structure InOrder (place call : Nat) (ids : List InstructionId) : Prop where
  sorted : ids.Pairwise (· < ·)
  bounds : ∀ id ∈ ids, place ≤ id ∧ id < call

theorem InOrder.widen {id call : Nat} {ids : List InstructionId} (h : InOrder (id + 1) call ids) :
    InOrder id call ids where
  sorted := h.sorted
  bounds := fun other hother => ⟨Nat.le_of_succ_le (h.bounds other hother).1, (h.bounds other hother).2⟩

theorem InOrder.cons {id call : Nat} {ids : List InstructionId} (h : InOrder (id + 1) call ids)
    (hid : id < call) : InOrder id call (id :: ids) where
  sorted := List.pairwise_cons.2 ⟨fun other hother => (h.bounds other hother).1, h.sorted⟩
  bounds := List.forall_mem_cons.2 ⟨⟨Nat.le_refl id, hid⟩, h.widen.bounds⟩

/-- What holds at every point of the scan for `count` arguments.  Each has its producer or is to be looked
for.  The producers stand in order, all of them behind the place.  As long as the one that is looked for is
not found, there is something to account for. -/
def Sound (call count : Nat) : ScanPoint → Prop
  | between place missing later =>
    place ≤ call ∧ later.length + missing = count ∧ InOrder place call later
  | within place need found missing later =>
    place ≤ call ∧ later.length + missing + 1 = count ∧ InOrder place call (found.toList ++ later) ∧
      (found = none → 0 < need)

theorem sound_start (call count : Nat) : Sound call count (.between call count []) :=
  ⟨Nat.le_refl call, Nat.zero_add count, List.Pairwise.nil, List.forall_mem_nil _⟩

end ScanPoint

namespace Body

open ScanPoint (Sound)

variable {b : Body} {call count : Nat} {s t : ScanPoint}

theorem Turn.sound (h : b.Turn s t) (hs : Sound call count s) : Sound call count t := by
  cases h with
  | argument place missing later =>
    obtain ⟨hplace, hcount, horder⟩ := hs
    exact ⟨hplace, by omega, horder, fun _ => Nat.one_pos⟩
  | @back id e need found missing later he hpushes =>
    obtain ⟨hplace, hcount, horder, hneed⟩ := hs
    have hid : id < call := hplace
    by_cases hfound : need + 1 - e.pushes = 0 ∧ found = none
    · -- the instruction left the value: it stands in front of all that were found
      obtain ⟨hleft, rfl⟩ := hfound
      rw [if_pos ⟨hleft, rfl⟩]
      refine ⟨Nat.le_of_lt hid, hcount, horder.cons hid, fun h => ?_⟩
      cases h
    · rw [if_neg hfound]
      refine ⟨Nat.le_of_lt hid, hcount, horder.widen, fun h => ?_⟩
      have hleft : need + 1 - e.pushes ≠ 0 := fun hleft => hfound ⟨hleft, h⟩
      omega
  | producer place id missing later =>
    obtain ⟨hplace, hcount, horder, -⟩ := hs
    refine ⟨hplace, ?_, horder⟩
    rw [List.length_cons]
    omega

theorem ScanReaches.sound (h : b.ScanReaches call count s) : Sound call count s := by
  induction h with
  | refl => exact ScanPoint.sound_start call count
  | tail _ hturn ih => exact hturn.sound ih

/-- Since no instruction leaves more than one value of its own, there is never a surplus. -/
theorem not_deadEnd_of_sound (h : Sound call count s) (fault : Fault) : ¬ b.DeadEnd call s fault := by
  intro hdead
  cases hdead with
  | unfound place missing later => exact Nat.lt_irrefl 0 (h.2.2.2 rfl)
  | surplus need found missing later he hpushes =>
    have hone := pushes_le_one_of_effect? he
    omega

/-- A point of the scan has a turn, or is an end that says what the scan gives. -/
theorem turn_or_ends_of_sound (h : Sound call count s) (hcall : call ≤ b.size) :
    (∃ t, b.Turn s t) ∨ b.Ends call s (b.resume call s) := by
  cases s with
  | between place missing later =>
    cases missing with
    | zero => exact Or.inr (.complete place later)
    | succ missing => exact Or.inl ⟨_, .argument place missing later⟩
  | within place need found missing later =>
    obtain ⟨hplace, -, -, hneed⟩ := h
    cases need with
    | zero =>
      cases found with
      | none => exact absurd (hneed rfl) (Nat.lt_irrefl 0)
      | some id => exact Or.inl ⟨_, .producer place id missing later⟩
    | succ need =>
      cases place with
      | zero =>
        rw [resume_within, producerBefore]
        exact Or.inr (.atStart need found missing later)
      | succ id =>
        obtain ⟨i, hget⟩ := b.get?_eq_some_of_lt id (Nat.lt_of_lt_of_le hplace hcall)
        cases heffect : i.effect with
        | error rule =>
          rw [resume_within, producerBefore, hget]
          simp only [heffect]
          exact Or.inr (.unknown need found missing later hget heffect)
        | ok e =>
          have he := (b.effect?_eq_some_iff id e).2 ⟨i, hget, heffect⟩
          have hone := pushes_le_one_of_effect? he
          exact Or.inl ⟨_, .back need found missing later he (by omega)⟩

/-! ## How it ends -/

/-- The turns that are left at most. -/
def turnsLeft : ScanPoint → Nat
  | .between place missing _ => place + 2 * missing
  | .within place _ _ missing _ => place + 2 * missing + 1

theorem Turn.turnsLeft_lt (h : b.Turn s t) : turnsLeft t < turnsLeft s := by
  cases h with
  | argument place missing later =>
    show place + 2 * missing + 1 < place + 2 * (missing + 1)
    omega
  | @back id e need found missing later he hpushes =>
    show id + 2 * missing + 1 < id + 1 + 2 * missing + 1
    omega
  | producer place id missing later => exact Nat.lt_succ_self _

theorem wellFounded_turn (b : Body) : WellFounded fun t s => b.Turn s t :=
  Subrelation.wf Turn.turnsLeft_lt (measure turnsLeft).wf

/-- From every point the scan comes to an end, and what comes out there is what the scan gives. -/
theorem exists_end_of_sound (h : Sound call count s) (hcall : call ≤ b.size) :
    ∃ t, Relation.ReflTransGen b.Turn s t ∧ b.Ends call t (b.resume call s) := by
  induction s using b.wellFounded_turn.induction with
  | h s ih =>
    rcases turn_or_ends_of_sound h hcall with ⟨next, hturn⟩ | hends
    · obtain ⟨t, hreach, hends⟩ := ih next hturn (hturn.sound h)
      refine ⟨t, hreach.head hturn, ?_⟩
      rwa [hturn.resume_eq call]
    · exact ⟨s, .refl, hends⟩

theorem exists_end_of_argumentProducers {i : Instruction} {sig : Signature} (hget : b.get? call = some i)
    (hflow : i.code.flow = .call) (hsig : i.operand.signature? = some sig) :
    ∃ s, b.ScanReaches call (argumentCount i.code sig) s ∧ b.Ends call s (b.argumentProducers call) := by
  have hcall := b.lt_size_of_get? call i hget
  rw [argumentProducers_of_signature hget hflow hsig]
  exact exists_end_of_sound (ScanPoint.sound_start call _) (Nat.le_of_lt hcall)

/-- There is no call at this place, or one without a signature, or the scan goes back from it. -/
theorem argumentProducers_cases (b : Body) (call : Nat) :
    (b.size ≤ call ∨ ∃ i, b.get? call = some i ∧ i.code.flow ≠ .call) ∧
      b.argumentProducers call = .error (.notACall call) ∨
    ∃ i, b.get? call = some i ∧ i.code.flow = .call ∧
      ((∃ rule, i.effect = .error rule ∧
          b.argumentProducers call = .error (.unrecognized call i.code rule)) ∨
        ∃ sig s, i.operand.signature? = some sig ∧ b.ScanReaches call (argumentCount i.code sig) s ∧
          b.Ends call s (b.argumentProducers call)) := by
  cases hget : b.get? call with
  | none =>
    refine Or.inl ⟨Or.inl (List.getElem?_eq_none_iff.1 hget), ?_⟩
    rw [argumentProducers, hget]
  | some i =>
    by_cases hflow : i.code.flow = .call
    · refine Or.inr ⟨i, rfl, hflow, ?_⟩
      cases hsig : i.operand.signature? with
      | none =>
        have hpops : i.popCount = .error (.pops i.code.pops) := by
          rw [Instruction.popCount, if_pos hflow, hsig]
        refine Or.inl ⟨.pops i.code.pops, ?_, ?_⟩
        · rw [Instruction.effect, hpops]
          rfl
        · rw [argumentProducers, hget]
          show (if i.code.flow = .call then _ else _) = _
          rw [if_pos hflow, hpops]
          rfl
      | some sig =>
        obtain ⟨s, hreach, hends⟩ := exists_end_of_argumentProducers hget hflow hsig
        exact Or.inr ⟨sig, s, rfl, hreach, hends⟩
    · refine Or.inl ⟨Or.inr ⟨i, rfl, hflow⟩, ?_⟩
      rw [argumentProducers, hget]
      exact if_neg hflow

theorem argumentProducers_eq_notACall_iff (b : Body) (call : Nat) :
    b.argumentProducers call = .error (.notACall call) ↔
      b.size ≤ call ∨ ∃ i, b.get? call = some i ∧ i.code.flow ≠ .call := by
  rcases b.argumentProducers_cases call with ⟨hnone, heq⟩ | ⟨i, hget, hflow, houtcome⟩
  · exact ⟨fun _ => hnone, fun _ => heq⟩
  · constructor
    · intro heq
      rcases houtcome with ⟨rule, -, hrule⟩ | ⟨sig, s, -, -, hends⟩
      · rw [heq] at hrule
        cases hrule
      · rw [heq] at hends
        cases hends
    · rintro (hsize | ⟨i', hget', hflow'⟩)
      · exact absurd (b.lt_size_of_get? call i hget) (Nat.not_lt.2 hsize)
      · rw [hget] at hget'
        exact absurd (Option.some.inj hget' ▸ hflow) hflow'

/-- The producers that the scan finds: one for each argument, in order and in front of the call. -/
theorem inOrder_of_argumentProducers {ps : List InstructionId} (h : b.argumentProducers call = .ok ps) :
    ∃ i sig, b.get? call = some i ∧ i.operand.signature? = some sig ∧
      ps.length = argumentCount i.code sig ∧ ps.Pairwise (· < ·) ∧ ∀ id ∈ ps, id < call := by
  rcases b.argumentProducers_cases call with ⟨-, heq⟩ | ⟨i, hget, -, ⟨rule, -, heq⟩ | hscan⟩
  · rw [h] at heq
    cases heq
  · rw [h] at heq
    cases heq
  · obtain ⟨sig, s, hsig, hreach, hends⟩ := hscan
    rw [h] at hends
    cases hends with
    | complete place =>
      obtain ⟨-, hlength, horder⟩ := hreach.sound
      exact ⟨i, sig, hget, hsig, hlength, horder.sorted, fun id hid => (horder.bounds id hid).2⟩

/-- The faults of the scan: an instruction of unknown effect, the call or one before it, or an argument
without a producer. -/
theorem fault_of_argumentProducers {fault : Fault} (h : b.argumentProducers call = .error fault)
    (hcall : fault ≠ .notACall call) :
    (∃ id ≤ call, ∃ i rule, b.get? id = some i ∧ i.effect = .error rule ∧
      fault = .unrecognized id i.code rule) ∨ fault = .noProducer call := by
  rcases b.argumentProducers_cases call with ⟨-, heq⟩ | ⟨i, hget, -, ⟨rule, hrule, heq⟩ | hscan⟩
  · rw [h] at heq
    exact absurd (Except.error.inj heq) hcall
  · rw [h] at heq
    exact Or.inl ⟨call, Nat.le_refl call, i, rule, hget, hrule, Except.error.inj heq⟩
  · obtain ⟨sig, s, hsig, hreach, hends⟩ := hscan
    rw [h] at hends
    cases hends with
    | atStart => exact Or.inr rfl
    | unknown need found missing later hget hrule =>
      have hlt := hreach.sound.1
      exact Or.inl ⟨_, Nat.le_of_lt hlt, _, _, hget, hrule, rfl⟩

/-- **How the scan back from a call ends.**  It refuses a place just when there is no call.  What it finds is
one producer for each argument, in the order of the body and in front of the call.  Otherwise it has come to
an instruction of unknown effect, the call or one before it, or an argument has no producer.  From every call
with a signature the loops run to an end, which is one of these three.  They never get to a dead end, where all
would be accounted for and nothing found, or an instruction would leave more than is looked for. -/
theorem argumentProducers_outcomes (b : Body) (call : InstructionId) :
    (b.argumentProducers call = .error (.notACall call) ↔
      b.size ≤ call ∨ ∃ i, b.get? call = some i ∧ i.code.flow ≠ .call) ∧
    (∀ ps, b.argumentProducers call = .ok ps →
      ∃ i sig, b.get? call = some i ∧ i.operand.signature? = some sig ∧
        ps.length = argumentCount i.code sig ∧ ps.Pairwise (· < ·) ∧ ∀ id ∈ ps, id < call) ∧
    (∀ fault, b.argumentProducers call = .error fault → fault ≠ .notACall call →
      (∃ id ≤ call, ∃ i rule, b.get? id = some i ∧ i.effect = .error rule ∧
        fault = .unrecognized id i.code rule) ∨ fault = .noProducer call) ∧
    (∀ i sig, b.get? call = some i → i.code.flow = .call → i.operand.signature? = some sig →
      (∃ s, b.ScanReaches call (argumentCount i.code sig) s ∧
        b.Ends call s (b.argumentProducers call)) ∧
      ∀ s, b.ScanReaches call (argumentCount i.code sig) s →
        b.resume call s = b.argumentProducers call ∧ ∀ fault, ¬ b.DeadEnd call s fault) ∧
    (∀ s fault, b.DeadEnd call s fault → b.resume call s = .error fault) ∧
    WellFounded fun t s => b.Turn s t := by
  refine ⟨b.argumentProducers_eq_notACall_iff call, fun ps => inOrder_of_argumentProducers,
    fun fault => fault_of_argumentProducers, fun i sig hget hflow hsig => ⟨?_, fun s hreach => ⟨?_, ?_⟩⟩,
    fun s fault => DeadEnd.resume_eq, b.wellFounded_turn⟩
  · exact exists_end_of_argumentProducers hget hflow hsig
  · rw [argumentProducers_of_signature hget hflow hsig]
    exact hreach.resume_eq
  · exact not_deadEnd_of_sound hreach.sound

/-- Two nested calls; the outer one takes a value from an instruction of unknown effect. -/
def callsOnUnknown : Body where
  name := "callsOnUnknown"
  instructions := [{ code := .calli }, { code := .ldarg0 }, { code := .ldarg1 }, { code := .dup },
    { code := .call, operand := .method ⟨"Math", "Max", ⟨{}, ["int32", "int32"], some "int32"⟩⟩ },
    { code := .call,
      operand := .method ⟨"Console", "Write", ⟨{}, ["string", "int32", "int32"], none⟩⟩ },
    { code := .ret }]
  handlers := []

/-- The scan from the inner call finds its arguments in order.  From the outer one it finds two of three and
ends at the start of the body, where the effect is unknown.  The other places have no call. -/
theorem callsOnUnknown_outcomes :
    (callsOnUnknown.argumentProducers 4 = .ok [2, 3] ∧ [2, 3].Pairwise (· < ·)) ∧
    (∃ s, callsOnUnknown.ScanReaches 5 3 s ∧
      callsOnUnknown.Ends 5 s (.error (.unrecognized 0 .calli (.pops Opcode.calli.pops)))) ∧
    (∀ s, callsOnUnknown.ScanReaches 5 3 s → ∀ fault, ¬ callsOnUnknown.DeadEnd 5 s fault) ∧
    callsOnUnknown.argumentProducers 6 = .error (.notACall 6) ∧
    callsOnUnknown.argumentProducers 7 = .error (.notACall 7) := by
  have hinner : callsOnUnknown.argumentProducers 4 = .ok [2, 3] := rfl
  obtain ⟨_, _, -, -, -, hsorted, -⟩ := (argumentProducers_outcomes callsOnUnknown 4).2.1 _ hinner
  obtain ⟨hend, hdead⟩ := (argumentProducers_outcomes callsOnUnknown 5).2.2.2.1 _ _ rfl rfl rfl
  refine ⟨⟨hinner, hsorted⟩, hend, fun s hreach => (hdead s hreach).2, ?_, ?_⟩
  · exact (argumentProducers_outcomes callsOnUnknown 6).1.2 (Or.inr ⟨_, rfl, by decide⟩)
  · exact (argumentProducers_outcomes callsOnUnknown 7).1.2 (Or.inl (by decide))

end Body

end PushGuard
