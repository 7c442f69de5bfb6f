import PushGuard.Proofs.Paths

/-!
# Stricter policies

Two passes over the same body, under two policies, go through it in lockstep: as long as both get
on, they carry stacks of the same size (`lockstep_sameSize`), since what an instruction does to the
size of the stack does not depend on which calls are guarded.  If one policy guards every call that
the other guards, the stricter pass also carries the larger tainted part
(`AtLeastAsStrict.lockstep`), and it never gets past an instruction at which the other one fails.

Both facts have the same induction over the pass (`Reached.related`).  What differs is the relation
between the states: `Lockstep` says what it must satisfy.
-/

namespace PushGuard

/-- Joining keeps the order: on both sides it is the sizes that decide how the states are joined. -/
theorem StackState.merge_le_merge {s t s' t' : StackState} (h : s ≤ t) (h' : s' ≤ t') :
    s.merge (.merged s') ≤ t.merge (.merged t') := by
  obtain ⟨hsize, htainted⟩ := h
  obtain ⟨hsize', htainted'⟩ := h'
  by_cases heq : s'.size = s.size
  · rw [merge_of_size_eq s s' heq, merge_of_size_eq t t' (by omega), hsize']
    apply clamp_le_clamp
    omega
  · rw [merge_of_size_ne s s' heq, merge_of_size_ne t t' (by omega)]
    exact ⟨hsize', htainted'⟩

/-! ## Related tables and frontiers -/

section Related

variable (R : StackState → StackState → Prop)

/-- Two notes of the same kind for related states. -/
inductive Pending.Related : Pending → Pending → Prop
  | forced {s t : StackState} : R s t → Related (.forced s) (.forced t)
  | merged {s t : StackState} : R s t → Related (.merged s) (.merged t)

/-- The same instructions have a note, and the states that are carried and noted are related. -/
structure Frontier.Related (f g : Frontier) : Prop where
  state : R f.state g.state
  notes : ∀ id, Option.Rel (Pending.Related R) (f.notes.get? id) (g.notes.get? id)

/-- What a relation between states must satisfy for two passes to keep it up. -/
structure Policy.Lockstep (p q : Policy) (b : Body) : Prop where
  empty : R .empty .empty
  handler : R p.handlerState q.handlerState
  merge : ∀ s t s' t', R s t → R s' t' → R (s.merge (.merged s')) (t.merge (.merged t'))
  transfer : ∀ id, ∀ i ∈ b.instructions, ∀ s t s' t', R s t →
    p.transfer id i s = .ok s' → q.transfer id i t = .ok t' → R s' t'

end Related

variable {R : StackState → StackState → Prop} {p q : Policy} {b : Body}

namespace Policy

theorem Lockstep.noted (h : Lockstep R p q b) {s t : StackState} (hst : R s t)
    {x y : Option Pending} (hxy : Option.Rel (Pending.Related R) x y) :
    Pending.Related R (JoinTable.noted s x) (JoinTable.noted t y) := by
  cases hxy with
  | none => exact .merged hst
  | some hxy =>
    cases hxy with
    | forced hforced => exact .forced hforced
    | merged hmerged => exact .merged (h.merge _ _ _ _ hmerged hst)

theorem Lockstep.entry (h : Lockstep R p q b) {f g : Frontier} (hfg : f.Related R g)
    (id : InstructionId) : R (f.entry id) (g.entry id) := by
  have hnote := hfg.notes id
  unfold Frontier.entry
  generalize f.notes.get? id = x at hnote
  generalize g.notes.get? id = y at hnote
  cases hnote with
  | none => exact hfg.state
  | some hnote =>
    cases hnote with
    | forced hforced => exact hforced
    | merged hmerged => exact h.merge _ _ _ _ hfg.state hmerged

theorem Lockstep.start (h : Lockstep R p q b) : (p.start b).Related R (q.start b) := by
  refine ⟨h.empty, fun id => ?_⟩
  rw [get?_start, get?_start, handlerEntry_eq, handlerEntry_eq]
  by_cases hentry : b.IsHandlerEntry id
  · rw [if_pos hentry, if_pos hentry]
    exact .some (.forced h.handler)
  · rw [if_neg hentry, if_neg hentry]
    exact .none

/-- One instruction, through which both passes get. -/
theorem Lockstep.next (h : Lockstep R p q b) {id : InstructionId} {i : Instruction}
    (hget : b.get? id = some i) {f g : Frontier} (hfg : f.Related R g) {v w : Visit}
    (hv : p.visit b.size id i f = .ok v) (hw : q.visit b.size id i g = .ok w) :
    v.next.Related R w.next := by
  obtain ⟨-, hvtransfer, hvstate, hvnotes⟩ := visit_eq_ok p b.size id i f v hv
  obtain ⟨-, hwtransfer, hwstate, hwnotes⟩ := visit_eq_ok q b.size id i g w hw
  have hafter : R v.after w.after := h.transfer id i (List.mem_of_getElem? hget) _ _ _ _
    (h.entry hfg id) hvtransfer hwtransfer
  refine ⟨?_, fun target => ?_⟩
  · rw [hvstate, hwstate]
    split
    · exact h.empty
    · exact hafter
  · rw [hvnotes, hwnotes]
    split
    · exact .some (h.noted hafter (hfg.notes target))
    · exact hfg.notes target

/-- Where both passes get, they carry related frontiers. -/
theorem Reached.related (h : Lockstep R p q b) {id : InstructionId} {f g : Frontier}
    (hf : Reached p b id f) (hg : Reached q b id g) : f.Related R g := by
  induction hf generalizing g with
  | start =>
    cases hg
    exact h.start
  | next _ hget hv ih =>
    cases hg with
    | next hg hget' hw =>
      obtain rfl := Option.some.inj (hget.symm.trans hget')
      exact h.next hget (ih hg) hv hw

/-- The states of two passes that succeed are related. -/
theorem Lockstep.states (h : Lockstep R p q b) {ss ts : List StackState}
    (hss : b.analyze p = .ok ss) (hts : b.analyze q = .ok ts) : List.Forall₂ R ss ts := by
  obtain ⟨hslength, hs⟩ := states_of_analyze p b ss hss
  obtain ⟨htlength, ht⟩ := states_of_analyze q b ts hts
  rw [List.forall₂_iff_get]
  refine ⟨hslength.trans htlength.symm, fun id hids hidt => ?_⟩
  obtain ⟨i, hget⟩ := b.get?_eq_some_of_lt id (hslength ▸ hids)
  obtain ⟨f, v, hf, hv, hvs⟩ := hs id i hget
  obtain ⟨g, w, hg, hw, hwt⟩ := ht id i hget
  have hrelated := h.entry (hf.related h hg) id
  rw [← (visit_eq_ok p b.size id i f v hv).1, ← (visit_eq_ok q b.size id i g w hw).1] at hrelated
  rw [List.getElem?_eq_getElem hids, Option.some.injEq] at hvs
  rw [List.getElem?_eq_getElem hidt, Option.some.injEq] at hwt
  simp only [List.get_eq_getElem]
  rw [hvs, hwt]
  exact hrelated

/-! ## Sizes -/

/-- Whatever the policies guard, the passes carry stacks of the same size. -/
theorem lockstep_sameSize (p q : Policy) (b : Body) :
    Lockstep (fun s t => s.size = t.size) p q b where
  empty := rfl
  handler := rfl
  merge s t s' t' hst hst' := by
    by_cases hsize : s'.size = s.size
    · rw [StackState.merge_of_size_eq s s' hsize, StackState.merge_of_size_eq t t' (by omega)]
      exact hst'
    · rw [StackState.merge_of_size_ne s s' hsize, StackState.merge_of_size_ne t t' (by omega)]
      exact hst'
  transfer id i _ s t s' t' hst hs ht := by
    obtain ⟨e, he, -, rfl⟩ := (transfer_eq_ok_iff p id i s s').1 hs
    obtain ⟨e', he', -, rfl⟩ := (transfer_eq_ok_iff q id i t t').1 ht
    rw [← hst, he] at he'
    obtain rfl := Except.ok.inj he'
    rw [leaves_size, leaves_size, hst]

/-! ## Stricter policies -/

/-- On the instructions of a body, `q` guards every call that `p` guards, and it taints the exception
if `p` does. -/
structure AtLeastAsStrict (q p : Policy) (b : Body) : Prop where
  guards : ∀ i ∈ b.instructions, (p.recognize i).isSome → (q.recognize i).isSome
  exception : p.taintsException → q.taintsException

theorem leaves_le_leaves (i : Instruction) (hguards : (p.recognize i).isSome → (q.recognize i).isSome)
    (s : StackState) (e : StackEffect) : p.leaves i s e ≤ q.leaves i s e := by
  unfold leaves
  apply StackState.clamp_le_clamp
  by_cases hq : (q.recognize i).isSome ∨ s.UsesTainted e.pops
  · rw [if_pos hq]
    exact Nat.min_le_left _ _
  · have hp : ¬ ((p.recognize i).isSome ∨ s.UsesTainted e.pops) := fun hp => hq (hp.imp_left hguards)
    rw [if_neg hq, if_neg hp]
    exact Nat.min_le_right _ _

/-- What the stricter policy lets through in the larger state, the other one lets through in the
smaller state, and it leaves less. -/
theorem transfer_le_transfer {id : InstructionId} {i : Instruction}
    (hguards : (p.recognize i).isSome → (q.recognize i).isSome) {s t t' : StackState} (hst : s ≤ t)
    (ht : q.transfer id i t = .ok t') : ∃ s', p.transfer id i s = .ok s' ∧ s' ≤ t' := by
  obtain ⟨e, he, hrefuses, rfl⟩ := (transfer_eq_ok_iff q id i t t').1 ht
  have htp : p.transfer id i t = .ok (p.leaves i t e) := by
    rw [transfer_eq_ok_iff]
    exact ⟨e, he, fun h => hrefuses ⟨hguards h.1, h.2⟩, rfl⟩
  obtain ⟨s', hs', hle⟩ := transfer_mono p id i hst htp
  exact ⟨s', hs', hle.trans (leaves_le_leaves i hguards t e)⟩

theorem AtLeastAsStrict.handlerState_le (h : AtLeastAsStrict q p b) :
    p.handlerState ≤ q.handlerState := by
  refine ⟨rfl, ?_⟩
  unfold handlerState
  cases hp : p.taintsException with
  | false => exact Nat.zero_le _
  | true => rw [h.exception hp]

theorem AtLeastAsStrict.lockstep (h : AtLeastAsStrict q p b) : Lockstep (· ≤ ·) p q b where
  empty := le_refl _
  handler := h.handlerState_le
  merge _ _ _ _ := StackState.merge_le_merge
  transfer id i hi s t s' t' hst hs ht := by
    obtain ⟨u, hu, hle⟩ := transfer_le_transfer (h.guards i hi) hst ht
    obtain rfl := Except.ok.inj (hs.symm.trans hu)
    exact hle

/-- Where the stricter pass gets through an instruction, the other one does not fail. -/
theorem AtLeastAsStrict.not_visit_error (h : AtLeastAsStrict q p b) {id : InstructionId}
    {i : Instruction} (hget : b.get? id = some i) {f g : Frontier} (hf : Reached p b id f)
    (hg : Reached q b id g) {w : Visit} (hw : q.visit b.size id i g = .ok w) (fault : Fault) :
    p.visit b.size id i f ≠ .error fault := by
  intro hfault
  rw [visit_eq_error_iff] at hfault
  have hentry : f.entry id ≤ g.entry id := h.lockstep.entry (hf.related h.lockstep hg) id
  obtain ⟨-, htransfer, -, -⟩ := visit_eq_ok q b.size id i g w hw
  obtain ⟨s', hs', -⟩ :=
    transfer_le_transfer (h.guards i (List.mem_of_getElem? hget)) hentry htransfer
  rw [hs'] at hfault
  cases hfault

/-- Where a policy fails, a stricter one fails there or before. -/
theorem AtLeastAsStrict.fails_no_later (h : AtLeastAsStrict q p b) {fault : Fault}
    (hp : b.analyze p = .error fault) :
    ∃ fault', b.analyze q = .error fault' ∧ fault'.instruction ≤ fault.instruction := by
  obtain ⟨id, i, f, hf, hget, hvisit⟩ := fault_of_analyze p b fault hp
  rw [instruction_of_visit_eq_error hvisit]
  cases hq : b.analyze q with
  | ok ts =>
    obtain ⟨g, w, hg, hw, -⟩ := (states_of_analyze q b ts hq).2 id i hget
    exact absurd hvisit (h.not_visit_error hget hf hg hw fault)
  | error fault' =>
    refine ⟨fault', rfl, ?_⟩
    obtain ⟨j, _, g, hg, -, hvisit'⟩ := fault_of_analyze q b fault' hq
    rw [instruction_of_visit_eq_error hvisit']
    apply Nat.le_of_not_lt
    intro hlt
    -- the stricter pass would have got through `id` on its way to `j`
    obtain ⟨g', i', w, hg', hget', hw⟩ := hg.before id hlt
    obtain rfl : i = i' := Option.some.inj (hget.symm.trans hget')
    exact absurd hvisit (h.not_visit_error hget hf hg' hw fault)

theorem AtLeastAsStrict.accepts (h : AtLeastAsStrict q p b) {ts : List StackState}
    (hq : b.analyze q = .ok ts) : ∃ ss, b.analyze p = .ok ss ∧ List.Forall₂ (· ≤ ·) ss ts := by
  cases hp : b.analyze p with
  | ok ss => exact ⟨ss, rfl, h.lockstep.states hp hq⟩
  | error fault =>
    obtain ⟨fault', hfault', -⟩ := h.fails_no_later hp
    rw [hq] at hfault'
    cases hfault'

/-- **Strictness is monotone in the policy.**  Of every body: what a policy accepts, every less
strict one accepts, with the same stack sizes and no more tainted values at any instruction; where a
policy fails, every stricter one fails there or before.  Under any two policies that accept the body
the stack sizes are the same. -/
theorem analyze_mono_in_strictness (b : Body) :
    (∀ p q : Policy, AtLeastAsStrict q p b →
      (∀ ts, b.analyze q = .ok ts → ∃ ss, b.analyze p = .ok ss ∧
        ss.length = b.size ∧ ts.length = b.size ∧
        ∀ (id : InstructionId) s t, ss[id]? = some s → ts[id]? = some t →
          s.size = t.size ∧ s.tainted ≤ t.tainted) ∧
      ∀ fault, b.analyze p = .error fault →
        ∃ fault', b.analyze q = .error fault' ∧ fault'.instruction ≤ fault.instruction) ∧
    ∀ (p q : Policy) ss ts, b.analyze p = .ok ss → b.analyze q = .ok ts →
      ss.map StackState.size = ts.map StackState.size := by
  refine ⟨fun p q h => ⟨fun ts hts => ?_, fun fault hfault => h.fails_no_later hfault⟩, ?_⟩
  · obtain ⟨ss, hss, hle⟩ := h.accepts hts
    refine ⟨ss, hss, (states_of_analyze p b ss hss).1, (states_of_analyze q b ts hts).1, ?_⟩
    intro id s t hs ht
    obtain ⟨hids, rfl⟩ := List.getElem?_eq_some_iff.1 hs
    obtain ⟨hidt, rfl⟩ := List.getElem?_eq_some_iff.1 ht
    exact hle.get hids hidt
  · intro p q ss ts hss hts
    have hsizes : List.Forall₂ (· = ·) (ss.map StackState.size) (ts.map StackState.size) := by
      rw [List.forall₂_map_left_iff, List.forall₂_map_right_iff]
      exact (lockstep_sameSize p q b).states hss hts
    rwa [List.forall₂_eq_eq_eq] at hsizes

/-- A handler that pushes the exception, and then what is no longer on the stack. -/
def pushTwiceInHandler : Body where
  name := "pushTwiceInHandler"
  instructions := [{ code := .ret },
    { code := .call, operand := .method ⟨"InlineIL.IL", "Push", ⟨{}, ["!!0"], none⟩⟩ },
    { code := .call, operand := .method ⟨"InlineIL.IL", "Push", ⟨{}, ["!!0"], none⟩⟩ },
    { code := .ret }]
  handlers := [{ kind := .typed, handlerStart := some 1 }]

/-- The second push fails if the exception may be pushed, so there is a failure, at the first push or
the second, if it may not.  A policy that guards nothing finds more tainted if the exception is. -/
theorem pushTwiceInHandler_fails_no_later :
    (∃ fault, pushTwiceInHandler.analyze {} = .error fault ∧ fault.instruction ≤ 2) ∧
      ∃ ss, pushTwiceInHandler.analyze { pushType := "", taintsException := false } = .ok ss ∧
        ∀ s, ss[1]? = some s → s.size = 1 ∧ s.tainted ≤ 1 := by
  obtain ⟨hmono, -⟩ := analyze_mono_in_strictness pushTwiceInHandler
  constructor
  · exact (hmono { taintsException := false } {} ⟨fun i _ h => h, fun _ => rfl⟩).2
      (.taintedPush 2 ⟨"InlineIL.IL", "Push", ⟨{}, ["!!0"], none⟩⟩
        (some "You may be able to make the IL layout safe by using IL.EnsureLocal.")) (by decide)
  · obtain ⟨ss, hss, -, -, hle⟩ := (hmono { pushType := "", taintsException := false }
      { pushType := "" } ⟨fun i _ h => h, fun h => nomatch h⟩).1
        [.empty, .clamp 1 1, .empty, .empty] (by decide)
    exact ⟨ss, hss, fun s hs => hle 1 s (.clamp 1 1) hs rfl⟩

end Policy

end PushGuard
