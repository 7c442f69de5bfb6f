import PushGuard.Builder
import PushGuard.Proofs.Layout
import PushGuard.Proofs.Results

/-!
# Resolving labels

Finishing a body resolves its labels one after the other.  `ResolvesInTurn` says what this means for
a computation: it gives a value that is made of the places of its labels, or it fails with the fault
of the first label that does not resolve.  Computations of this kind compose, so finishing is one of
them (`Builder.finish_resolvesInTurn`), whatever the labels are.
-/

namespace PushGuard

/-- If not all elements of a list have a property, there is a first one that has not. -/
theorem exists_first_not {α : Type} {p : α → Prop} {xs : List α} (h : ¬ ∀ x ∈ xs, p x) :
    ∃ before x after, xs = before ++ x :: after ∧ (∀ y ∈ before, p y) ∧ ¬ p x := by
  induction xs with
  | nil => exact absurd (fun x hx => nomatch hx) h
  | cons first rest ih =>
    by_cases hfirst : p first
    · rw [List.forall_mem_cons, not_and] at h
      obtain ⟨before, x, after, rfl, hbefore, hx⟩ := ih (h hfirst)
      exact ⟨first :: before, x, after, rfl, List.forall_mem_cons.2 ⟨hfirst, hbefore⟩, hx⟩
    · exact ⟨[], first, rest, rfl, List.forall_mem_nil _, hfirst⟩

/-! ## Computations that resolve labels in turn -/

/-- The computation resolves these labels one after the other and makes a value of their places.  It
fails with the fault of the first label that does not resolve. -/
structure ResolvesInTurn {L ε α : Type} (resolve : L → Except ε Nat) (labels : List L)
    (make : (L → Nat) → α) (c : Except ε α) : Prop where
  ok : ∀ place, (∀ label ∈ labels, resolve label = .ok (place label)) → c = .ok (make place)
  error : ∀ before label after e, labels = before ++ label :: after →
    (∀ other ∈ before, ∃ k, resolve other = .ok k) → resolve label = .error e → c = .error e

namespace ResolvesInTurn

variable {L ε α β : Type} {resolve : L → Except ε Nat}

theorem exists_places {labels : List L} (h : ∀ label ∈ labels, ∃ k, resolve label = .ok k) :
    ∃ place : L → Nat, ∀ label ∈ labels, resolve label = .ok (place label) := by
  refine ⟨fun label => (resolve label).toOption.getD 0, fun label hlabel => ?_⟩
  obtain ⟨k, hk⟩ := h label hlabel
  simp only [hk, Except.toOption, Option.getD_some]

theorem pure (a : α) : ResolvesInTurn resolve [] (fun _ => a) (.ok a) where
  ok _ _ := rfl
  error before label after e hlabels := by
    have := congrArg List.length hlabels
    simp at this

theorem single (label : L) :
    ResolvesInTurn resolve [label] (fun place => place label) (resolve label) where
  ok place h := h label List.mem_cons_self
  error before other after e hlabels _ he := by
    cases before with
    | nil =>
      obtain ⟨rfl, -⟩ := List.cons.inj hlabels
      exact he
    | cons first before =>
      have := congrArg List.length hlabels
      simp at this

theorem bind {labels labels' : List L} {make : (L → Nat) → α} {make' : α → (L → Nat) → β}
    {c : Except ε α} {f : α → Except ε β} (hc : ResolvesInTurn resolve labels make c)
    (hf : ∀ a, ResolvesInTurn resolve labels' (make' a) (f a)) :
    ResolvesInTurn resolve (labels ++ labels') (fun place => make' (make place) place) (c >>= f) where
  ok place h := by
    rw [hc.ok place fun label hlabel => h label (List.mem_append_left _ hlabel)]
    exact (hf _).ok place fun label hlabel => h label (List.mem_append_right _ hlabel)
  error before label after e hlabels hbefore he := by
    -- the first label that does not resolve is one of `c` or one of `f`
    rcases List.append_eq_append_iff.1 hlabels with ⟨rest, rfl, hlabels'⟩ | ⟨rest, hrest, hafter⟩
    · obtain ⟨place, hplace⟩ := exists_places fun label hlabel =>
        hbefore label (List.mem_append_left _ hlabel)
      rw [hc.ok place hplace]
      exact (hf _).error rest label after e hlabels'
        (fun other hother => hbefore other (List.mem_append_right _ hother)) he
    · cases rest with
      | nil =>
        rw [List.append_nil] at hrest
        subst hrest
        obtain ⟨place, hplace⟩ := exists_places hbefore
        rw [hc.ok place hplace]
        exact (hf _).error [] label after e hafter.symm (fun other hother => nomatch hother) he
      | cons first rest =>
        obtain ⟨rfl, -⟩ := List.cons.inj hafter
        rw [hc.error before label rest e hrest hbefore he]
        rfl

theorem map {labels : List L} {make : (L → Nat) → α} {c : Except ε α}
    (hc : ResolvesInTurn resolve labels make c) (f : α → β) :
    ResolvesInTurn resolve labels (fun place => f (make place)) (c >>= fun a => .ok (f a)) := by
  have h := hc.bind fun a => pure (f a)
  rwa [List.append_nil] at h

theorem mapM (labels : α → List L) (make : α → (L → Nat) → β) (f : α → Except ε β)
    (h : ∀ x, ResolvesInTurn resolve (labels x) (make x) (f x)) (xs : List α) :
    ResolvesInTurn resolve (xs.flatMap labels) (fun place => xs.map fun x => make x place)
      (xs.mapM f) := by
  induction xs with
  | nil => exact pure []
  | cons x xs ih =>
    rw [List.flatMap_cons, List.mapM_cons]
    exact (h x).bind fun y => ih.map (y :: ·)

/-- One label that does not resolve is enough for a failure. -/
theorem exists_error {labels : List L} {make : (L → Nat) → α} {c : Except ε α}
    (hc : ResolvesInTurn resolve labels make c) (h : ¬ ∀ label ∈ labels, ∃ k, resolve label = .ok k) :
    ∃ e, c = .error e := by
  obtain ⟨before, label, after, hlabels, hbefore, hlabel⟩ := exists_first_not h
  cases hresolve : resolve label with
  | ok k => exact absurd ⟨k, hresolve⟩ hlabel
  | error e => exact ⟨e, hc.error before label after e hlabels hbefore hresolve⟩

end ResolvesInTurn

/-! ## Finishing a body -/

/-- The labels that an instruction names. -/
def Draft.labels {L : Type} : Draft L → List L
  | plain _ _ => []
  | branch _ label => [label]
  | switch labels => labels

/-- The instruction, if the labels are at these places. -/
def Draft.resolved {L : Type} : Draft L → (L → Nat) → Instruction
  | plain code operand, _ => { code, operand }
  | branch code label, place => { code, operand := .target (some (place label)) }
  | switch labels, place =>
    { code := .switch, operand := .switch (labels.map fun label => some (place label)) }

/-- The labels that a handler names; the one of its filter comes last. -/
def HandlerDraft.labels {L : Type} (h : HandlerDraft L) : List L :=
  h.handlerStart :: h.filterStart.toList

/-- The handler, if the labels are at these places. -/
def HandlerDraft.resolved {L : Type} (h : HandlerDraft L) (place : L → Nat) : Handler :=
  { kind := h.kind, handlerStart := some (place h.handlerStart), filterStart := h.filterStart.map place }

namespace Builder

variable {L : Type} [BEq L]

omit [BEq L] in
/-- The labels that are named, those of instructions first. -/
def labels (b : Builder L) : List L :=
  b.drafts.toList.flatMap Draft.labels ++ b.handlers.toList.flatMap HandlerDraft.labels

theorem resolve_eq_ok_iff (b : Builder L) (label : L) (k : Nat) :
    b.resolve label = .ok k ↔ b.place? label = some k ∧ k < b.drafts.size := by
  unfold resolve
  cases b.place? label with
  | none => simp
  | some id =>
    by_cases hid : id < b.drafts.size
    · simp only [if_pos hid, Except.ok.injEq, Option.some.injEq]
      constructor
      · rintro rfl
        exact ⟨rfl, hid⟩
      · exact And.left
    · simp only [if_neg hid, reduceCtorEq, Option.some.injEq, false_iff]
      rintro ⟨rfl, hlt⟩
      exact hid hlt

/-- There is one way not to resolve. -/
theorem resolve_eq_error (b : Builder L) (label : L) (h : ¬ ∃ k, b.resolve label = .ok k) :
    b.resolve label = .error (.unplaced label) := by
  cases hresolve : b.resolve label with
  | ok k => exact absurd ⟨k, hresolve⟩ h
  | error e =>
    unfold resolve at hresolve
    split at hresolve
    · split at hresolve
      · cases hresolve
      · exact hresolve.symm
    · exact hresolve.symm

theorem resolveDraft_resolvesInTurn (b : Builder L) (draft : Draft L) :
    ResolvesInTurn b.resolve draft.labels draft.resolved (b.resolveDraft draft) := by
  cases draft with
  | plain code operand => exact .pure _
  | branch code label =>
    exact (ResolvesInTurn.single label).map fun id =>
      ({ code, operand := .target (some id) } : Instruction)
  | switch labels =>
    have h := ResolvesInTurn.mapM (fun label => [label]) _ b.resolve ResolvesInTurn.single labels
    rw [List.flatMap_singleton'] at h
    have hmap := h.map fun ids => ({ code := .switch, operand := .switch (ids.map some) } : Instruction)
    simp only [List.map_map] at hmap
    exact hmap

theorem resolveHandler_resolvesInTurn (b : Builder L) (h : HandlerDraft L) :
    ResolvesInTurn b.resolve h.labels h.resolved (b.resolveHandler h) := by
  have hfilter : ResolvesInTurn b.resolve h.filterStart.toList (fun place => h.filterStart.map place)
      (h.filterStart.mapM b.resolve) := by
    cases h.filterStart with
    | none => exact .pure _
    | some filter => exact (ResolvesInTurn.single filter).map some
  exact (ResolvesInTurn.single h.handlerStart).bind fun start => hfilter.map fun filterStart =>
    ({ kind := h.kind, handlerStart := some start, filterStart } : Handler)

/-- Finishing a body resolves the labels of the instructions, then those of the handlers. -/
theorem finish_resolvesInTurn (b : Builder L) :
    ResolvesInTurn b.resolve b.labels
      (fun place => Body.ofInstructions b.name (b.drafts.toList.map fun draft => draft.resolved place)
        (b.handlers.toList.map fun handler => handler.resolved place)) b.finish :=
  (ResolvesInTurn.mapM _ _ _ b.resolveDraft_resolvesInTurn _).bind fun instructions =>
    (ResolvesInTurn.mapM _ _ _ b.resolveHandler_resolvesInTurn _).map fun handlers =>
      Body.ofInstructions b.name instructions handlers

end Builder

end PushGuard
