import Mathlib.Data.List.Induction
import PushGuard.Proofs.LabelResolution

/-!
# Runs of a builder

A builder that hands out its labels is driven by steps.  What a run of steps has done is read off the
steps themselves: the instructions they emit, the handlers they register, and behind how many
instructions they place a label for the last time.  One step keeps the builder in line with the steps
so far (`Builder.Holds.step`), so a run does (`Builder.holds_run`), and finishing the body then
resolves every label to the place that the steps gave it.
-/

namespace PushGuard

/-! ## What steps say -/

namespace BuildStep

/-- The instruction that a step emits. -/
def draft? : BuildStep → Option (Draft Label)
  | emit draft => some draft
  | _ => none

/-- The handler that a step registers. -/
def handler? : BuildStep → Option (HandlerDraft Label)
  | handler h => some h
  | _ => none

/-- The instructions that steps emit, in order. -/
def emitted (steps : List BuildStep) : List (Draft Label) := steps.filterMap draft?

/-- The handlers that steps register, in order. -/
def registered (steps : List BuildStep) : List (HandlerDraft Label) := steps.filterMap handler?

/-- The labels that steps name: those of branches and switches in the order of emission, then those
of handlers. -/
def named (steps : List BuildStep) : List Label :=
  (emitted steps).flatMap Draft.labels ++ (registered steps).flatMap HandlerDraft.labels

/-- The last step that places the label comes behind `k` instructions. -/
def PlacedAt (steps : List BuildStep) (label : Label) (k : Nat) : Prop :=
  ∃ before after, steps = before ++ place label :: after ∧ place label ∉ after ∧
    k = (emitted before).length

/-- The label marks an instruction: one is emitted behind its last place. -/
def Marks (steps : List BuildStep) (label : Label) : Prop :=
  ∃ k < (emitted steps).length, PlacedAt steps label k

theorem emitted_concat (steps : List BuildStep) (s : BuildStep) :
    emitted (steps ++ [s]) = emitted steps ++ s.draft?.toList := by
  rw [emitted, List.filterMap_append]
  cases s <;> rfl

theorem registered_concat (steps : List BuildStep) (s : BuildStep) :
    registered (steps ++ [s]) = registered steps ++ s.handler?.toList := by
  rw [registered, List.filterMap_append]
  cases s <;> rfl

theorem not_placedAt_nil (label : Label) (k : Nat) : ¬ PlacedAt [] label k := by
  rintro ⟨before, after, hsteps, -, -⟩
  have := congrArg List.length hsteps
  simp at this

/-- One more step places the label anew, or leaves it where it was. -/
theorem placedAt_concat_iff (steps : List BuildStep) (s : BuildStep) (label : Label) (k : Nat) :
    PlacedAt (steps ++ [s]) label k ↔
      (s = place label ∧ k = (emitted steps).length) ∨ (s ≠ place label ∧ PlacedAt steps label k) := by
  constructor
  · rintro ⟨before, after, hsteps, hafter, hk⟩
    rcases List.eq_nil_or_concat after with rfl | ⟨after', last, rfl⟩
    · obtain ⟨rfl, hs⟩ := List.append_inj' hsteps rfl
      exact Or.inl ⟨List.cons.inj hs |>.1, hk⟩
    · rw [List.concat_eq_append] at hsteps hafter
      rw [← List.cons_append, ← List.append_assoc] at hsteps
      obtain ⟨rfl, hs⟩ := List.append_inj' hsteps rfl
      obtain ⟨rfl, -⟩ := List.cons.inj hs
      refine Or.inr ⟨?_, before, after', rfl, ?_, hk⟩
      · rintro rfl
        exact hafter (List.mem_append_right _ List.mem_cons_self)
      · intro hmem
        exact hafter (List.mem_append_left _ hmem)
  · rintro (⟨rfl, hk⟩ | ⟨hs, before, after, rfl, hafter, hk⟩)
    · exact ⟨steps, [], rfl, List.not_mem_nil, hk⟩
    · refine ⟨before, after ++ [s], ?_, ?_, hk⟩
      · rw [List.append_assoc, List.cons_append]
      · intro hmem
        rcases List.mem_append.1 hmem with hmem | hmem
        · exact hafter hmem
        · exact hs (List.mem_singleton.1 hmem).symm

end BuildStep

open BuildStep

/-! ## What the builder keeps -/

namespace Builder

/-- The builder has taken in what the steps say. -/
structure Holds (name : String) (steps : List BuildStep) (b : Builder Label) : Prop where
  name : b.name = name
  drafts : b.drafts.toList = emitted steps
  handlers : b.handlers.toList = registered steps
  placed : ∀ label k, b.place? label = some k ↔ PlacedAt steps label k

theorem Holds.start (name : String) : Holds name [] { name } where
  name := rfl
  drafts := rfl
  handlers := rfl
  placed label k := by
    constructor
    · intro h
      cases h
    · intro h
      exact absurd h (not_placedAt_nil label k)

theorem Holds.size_drafts {name : String} {steps : List BuildStep} {b : Builder Label}
    (h : Holds name steps b) : b.drafts.size = (emitted steps).length := by
  rw [← h.drafts, Array.length_toList]

theorem name_step (b : Builder Label) (s : BuildStep) : (b.step s).2.name = b.name := by
  cases s <;> rfl

theorem drafts_step (b : Builder Label) (s : BuildStep) :
    (b.step s).2.drafts.toList = b.drafts.toList ++ s.draft?.toList := by
  cases s with
  | emit draft => exact Array.toList_push
  | fresh | place _ | handler _ => exact (List.append_nil _).symm

theorem handlers_step (b : Builder Label) (s : BuildStep) :
    (b.step s).2.handlers.toList = b.handlers.toList ++ s.handler?.toList := by
  cases s with
  | handler handler => exact Array.toList_push
  | fresh | place _ | emit _ => exact (List.append_nil _).symm

/-- Only a step that places the label moves it. -/
theorem place?_step_of_ne (b : Builder Label) (s : BuildStep) (label : Label)
    (hs : s ≠ .place label) : (b.step s).2.place? label = b.place? label := by
  cases s with
  | place placed =>
    have hne : (label == placed) = false := beq_false_of_ne fun heq => hs (heq ▸ rfl)
    show ((placed, b.drafts.size) :: b.placed).lookup label = b.placed.lookup label
    rw [List.lookup_cons, hne]
  | fresh | emit _ | handler _ => rfl

theorem place?_step_place (b : Builder Label) (label : Label) :
    (b.step (.place label)).2.place? label = some b.drafts.size := by
  show ((label, b.drafts.size) :: b.placed).lookup label = some b.drafts.size
  rw [List.lookup_cons, beq_self_eq_true]

/-- One step keeps the builder in line with what the steps say. -/
theorem Holds.step {name : String} {steps : List BuildStep} {b : Builder Label}
    (h : Holds name steps b) (s : BuildStep) : Holds name (steps ++ [s]) (b.step s).2 where
  name := by rw [name_step, h.name]
  drafts := by rw [drafts_step, h.drafts, emitted_concat]
  handlers := by rw [handlers_step, h.handlers, registered_concat]
  placed label k := by
    rw [placedAt_concat_iff]
    by_cases hs : s = .place label
    · subst hs
      rw [place?_step_place, h.size_drafts, Option.some.injEq]
      simp [eq_comm]
    · rw [place?_step_of_ne b s label hs, h.placed]
      simp [hs]

theorem run_cons (b : Builder Label) (s : BuildStep) (rest : List BuildStep) :
    b.run (s :: rest) =
      ((b.step s).1 :: ((b.step s).2.run rest).1, ((b.step s).2.run rest).2) := rfl

theorem run_append (b : Builder Label) (steps steps' : List BuildStep) :
    b.run (steps ++ steps') =
      ((b.run steps).1 ++ ((b.run steps).2.run steps').1, ((b.run steps).2.run steps').2) := by
  induction steps generalizing b with
  | nil => rfl
  | cons s rest ih =>
    rw [List.cons_append, run_cons, ih, run_cons, List.cons_append]

theorem length_replies (b : Builder Label) (steps : List BuildStep) :
    (b.run steps).1.length = steps.length := by
  induction steps generalizing b with
  | nil => rfl
  | cons s rest ih =>
    rw [run_cons, List.length_cons, List.length_cons, ih]

/-- After any run from a new builder. -/
theorem holds_run (name : String) (steps : List BuildStep) :
    Holds name steps (({ name } : Builder Label).run steps).2 := by
  induction steps using List.reverseRecOn with
  | nil => exact Holds.start name
  | append_singleton steps s ih =>
    rw [run_append]
    exact ih.step s

/-- The reply to the step that follows these steps. -/
theorem reply_of_run (b : Builder Label) (before after : List BuildStep) (s : BuildStep) :
    (b.run (before ++ s :: after)).1[before.length]? = some ((b.run before).2.step s).1 := by
  rw [run_append, List.getElem?_append_right (Nat.le_of_eq (length_replies b before)),
    length_replies, Nat.sub_self]
  rfl

/-! ## Finishing -/

variable {name : String} {steps : List BuildStep} {b : Builder Label}

theorem Holds.labels (h : Holds name steps b) : b.labels = named steps := by
  unfold Builder.labels named
  rw [h.drafts, h.handlers]

theorem Holds.resolve_eq_ok_iff (h : Holds name steps b) (label : Label) (k : Nat) :
    b.resolve label = .ok k ↔ PlacedAt steps label k ∧ k < (emitted steps).length := by
  rw [Builder.resolve_eq_ok_iff, h.placed, h.size_drafts]

theorem Holds.exists_resolve_iff (h : Holds name steps b) (label : Label) :
    (∃ k, b.resolve label = .ok k) ↔ Marks steps label := by
  unfold Marks
  simp only [h.resolve_eq_ok_iff, and_comm]

theorem Holds.finish_eq_error (h : Holds name steps b) {before after : List Label} {label : Label}
    (hnamed : named steps = before ++ label :: after) (hbefore : ∀ other ∈ before, Marks steps other)
    (hlabel : ¬ Marks steps label) : b.finish = .error (.unplaced label) := by
  rw [← h.labels] at hnamed
  rw [← h.exists_resolve_iff] at hlabel
  exact b.finish_resolvesInTurn.error before label after _ hnamed
    (fun other hother => (h.exists_resolve_iff other).2 (hbefore other hother))
    (b.resolve_eq_error label hlabel)

theorem Holds.finish_eq_ok (h : Holds name steps b) {place : Label → Nat}
    (hplace : ∀ label ∈ named steps,
      PlacedAt steps label (place label) ∧ place label < (emitted steps).length) :
    b.finish = .ok (Body.ofInstructions name
      ((emitted steps).map fun draft => draft.resolved place)
      ((registered steps).map fun handler => handler.resolved place)) := by
  have hfinish := b.finish_resolvesInTurn.ok place fun label hlabel =>
    (h.resolve_eq_ok_iff label (place label)).2 (hplace label (h.labels ▸ hlabel))
  rw [h.name, h.drafts, h.handlers] at hfinish
  exact hfinish

/-- If not all of the labels mark an instruction, there is a first one that does not. -/
theorem exists_first_unmarked {labels : List Label} (h : ¬ ∀ label ∈ labels, Marks steps label) :
    ∃ before label after, labels = before ++ label :: after ∧
      (∀ other ∈ before, Marks steps other) ∧ ¬ Marks steps label :=
  exists_first_not h

/-- **Labels are resolved to their last places.**  Of every run of steps on a new builder: each
instruction that is emitted is answered by its place.  The body can be finished exactly when every
label that is named marks an instruction.  It then has the emitted instructions and the registered
handlers in order, with each label replaced by the place behind which it was placed last, and its
offsets are the sums of the widths.  Otherwise the first named label that marks none is reported. -/
theorem finish_resolves_last_places (name : String) (steps : List BuildStep) :
    let outcome := ({ name } : Builder Label).run steps
    (∀ before draft after, steps = before ++ .emit draft :: after →
      outcome.1[before.length]? = some (.emitted (emitted before).length)) ∧
    ((∃ body, outcome.2.finish = .ok body) ↔ ∀ label ∈ named steps, Marks steps label) ∧
    (∀ body, outcome.2.finish = .ok body → ∃ place : Label → Nat,
      (∀ label ∈ named steps, PlacedAt steps label (place label)) ∧
      body = Body.ofInstructions name ((emitted steps).map fun draft => draft.resolved place)
        ((registered steps).map fun handler => handler.resolved place) ∧
      ∀ id i, body.get? id = some i → i.offset = UInt32.ofNat (startOf body.instructions id)) ∧
    (∀ before label after, named steps = before ++ label :: after →
      (∀ other ∈ before, Marks steps other) → ¬ Marks steps label →
      outcome.2.finish = .error (.unplaced label)) := by
  intro outcome
  have hholds : Holds name steps outcome.2 := holds_run name steps
  refine ⟨?_, ⟨?_, ?_⟩, ?_, fun before label after => hholds.finish_eq_error⟩
  · rintro before draft after rfl
    have hreply := reply_of_run { name } before after (.emit draft)
    rw [← (holds_run name before).size_drafts]
    exact hreply
  · rintro ⟨body, hbody⟩
    by_contra hmarks
    obtain ⟨before, label, after, hnamed, hbefore, hlabel⟩ := exists_first_unmarked hmarks
    rw [hholds.finish_eq_error hnamed hbefore hlabel] at hbody
    cases hbody
  · intro hmarks
    obtain ⟨place, hplace⟩ := ResolvesInTurn.exists_places fun label hlabel =>
      (hholds.exists_resolve_iff label).2 (hmarks label hlabel)
    exact ⟨_, hholds.finish_eq_ok fun label hlabel =>
      (hholds.resolve_eq_ok_iff label _).1 (hplace label hlabel)⟩
  · intro body hbody
    by_cases hmarks : ∀ label ∈ named steps, Marks steps label
    · obtain ⟨place, hplace⟩ := ResolvesInTurn.exists_places fun label hlabel =>
        (hholds.exists_resolve_iff label).2 (hmarks label hlabel)
      have hplaced : ∀ label ∈ named steps,
          PlacedAt steps label (place label) ∧ place label < (emitted steps).length :=
        fun label hlabel => (hholds.resolve_eq_ok_iff label _).1 (hplace label hlabel)
      rw [hholds.finish_eq_ok hplaced] at hbody
      obtain rfl := Except.ok.inj hbody
      exact ⟨place, fun label hlabel => (hplaced label hlabel).1, rfl,
        fun id i hget => Body.offset_ofInstructions hget⟩
    · obtain ⟨before, label, after, hnamed, hbefore, hlabel⟩ := exists_first_unmarked hmarks
      rw [hholds.finish_eq_error hnamed hbefore hlabel] at hbody
      cases hbody

/-- A label that is placed in front of a branch to it, and again behind the branch. -/
def movedLabel : List BuildStep :=
  [.fresh, .place 0, .emit (.branch .br 0), .place 0, .emit (.plain .ret .none)]

/-- The last place of the label counts.  With a handler at a label that is placed nowhere, it is this
label that is reported. -/
theorem movedLabel_finishes :
    (({ name := "M" } : Builder Label).run movedLabel).1[4]? = some (.emitted 1) ∧
      (∃ body, (({ name := "M" } : Builder Label).run movedLabel).2.finish = .ok body) ∧
      (({ name := "M" } : Builder Label).run
        (movedLabel ++ [.handler ⟨.typed, 7, none⟩])).2.finish = .error (.unplaced 7) := by
  obtain ⟨hreplies, hfinish, -, -⟩ := finish_resolves_last_places "M" movedLabel
  obtain ⟨-, -, -, herror⟩ :=
    finish_resolves_last_places "M" (movedLabel ++ [.handler ⟨.typed, 7, none⟩])
  have hplaced : PlacedAt movedLabel 0 1 :=
    ⟨[.fresh, .place 0, .emit (.branch .br 0)], [.emit (.plain .ret .none)], rfl, by simp, rfl⟩
  refine ⟨hreplies [.fresh, .place 0, .emit (.branch .br 0), .place 0] _ [] rfl,
    hfinish.2 fun label hlabel => ?_, herror [0] 7 [] rfl ?_ ?_⟩
  · obtain rfl := List.mem_singleton.1 hlabel
    exact ⟨1, by decide, hplaced⟩
  · intro other hother
    obtain rfl := List.mem_singleton.1 hother
    exact ⟨1, by decide, (placedAt_concat_iff _ _ _ _).2 (Or.inr ⟨nofun, hplaced⟩)⟩
  · rintro ⟨k, -, before, after, hsteps, -, -⟩
    have hmem : BuildStep.place 7 ∈ movedLabel ++ [.handler ⟨.typed, 7, none⟩] := by
      rw [hsteps]
      exact List.mem_append_right _ List.mem_cons_self
    simp [movedLabel] at hmem

end Builder

end PushGuard
