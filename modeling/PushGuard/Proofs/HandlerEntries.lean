import PushGuard.Proofs.Paths

/-!
# The entries of exception handlers

Before the pass starts, it notes for every entry of a handler that the exception alone is on the
stack.  This note stays as it is and wins at the join, whatever branches and the instruction before
bring to the entry, and no other instruction ever gets a note of its kind
(`Reached.get?_eq_forced_iff`).  A handler that begins by pushing a tainted exception is therefore
refused, wherever it stands and however it is entered.
-/

namespace PushGuard

/-- The handler is entered at this instruction with the exception on the stack. -/
def Handler.EntersAt (h : Handler) (id : InstructionId) : Prop :=
  (h.kind = .typed ∨ h.kind = .filter) ∧ h.handlerStart = some id ∨
    h.kind = .filter ∧ h.filterStart = some id

instance (h : Handler) (id : InstructionId) : Decidable (h.EntersAt id) :=
  inferInstanceAs (Decidable (_ ∨ _))

theorem Handler.mem_exceptionEntries (h : Handler) (id : InstructionId) :
    id ∈ h.exceptionEntries ↔ h.EntersAt id := by
  unfold exceptionEntries EntersAt
  cases h.kind with
  | typed => simp
  | filter => simp
  | cleanup => simp
  | fault => simp

theorem Body.isHandlerEntry_iff (b : Body) (id : InstructionId) :
    b.IsHandlerEntry id ↔ ∃ h ∈ b.handlers, h.EntersAt id := by
  unfold IsHandlerEntry
  rw [List.mem_flatMap]
  constructor
  · rintro ⟨h, hmem, hid⟩
    exact ⟨h, hmem, (h.mem_exceptionEntries id).1 hid⟩
  · rintro ⟨h, hmem, hid⟩
    exact ⟨h, hmem, (h.mem_exceptionEntries id).2 hid⟩

/-- A branch neither makes a forced note nor changes one. -/
theorem JoinTable.noted_eq_forced_iff (s t : StackState) (o : Option Pending) :
    noted s o = .forced t ↔ o = some (.forced t) := by
  rcases o with _ | _ | _
  · simp [noted]
  · simp [noted, Pending.absorb]
  · simp [noted, Pending.absorb]

namespace Policy

variable {p : Policy} {b : Body}

/-- The forced notes are those of the handlers' entries, at every place that the pass reaches. -/
theorem Reached.get?_eq_forced_iff {id : InstructionId} {f : Frontier} (h : Reached p b id f)
    (place : InstructionId) (s : StackState) :
    f.notes.get? place = some (.forced s) ↔ b.IsHandlerEntry place ∧ s = p.handlerState := by
  induction h with
  | start =>
    rw [get?_start, handlerEntry_eq]
    by_cases hentry : b.IsHandlerEntry place
    · simp [hentry, eq_comm]
    · simp [hentry]
  | @next id i f v _ _ hvisit ih =>
    obtain ⟨-, -, -, hnotes⟩ := visit_eq_ok p b.size id i f v hvisit
    rw [hnotes, ← ih]
    split
    · rw [Option.some.injEq, JoinTable.noted_eq_forced_iff]
    · rfl

/-- The pass comes to a handler's entry with the exception alone on the stack. -/
theorem Reached.entry_of_isHandlerEntry {id : InstructionId} {f : Frontier}
    (h : Reached p b id f) (hentry : b.IsHandlerEntry id) : f.entry id = p.handlerState := by
  have hnote := (h.get?_eq_forced_iff id p.handlerState).2 ⟨hentry, rfl⟩
  unfold Frontier.entry
  rw [hnote]
  rfl

/-- The pass comes to any other instruction in the state that the one before leaves, joined with what
branches have brought, if there are any. -/
theorem Reached.entry_of_not_isHandlerEntry {id : InstructionId} {f : Frontier}
    (h : Reached p b id f) (hentry : ¬ b.IsHandlerEntry id) :
    f.notes.get? id = none ∧ f.entry id = f.state ∨
      ∃ s, f.notes.get? id = some (.merged s) ∧ f.entry id = f.state.merge (.merged s) := by
  have hforced : ∀ s, f.notes.get? id ≠ some (.forced s) := by
    intro s hs
    exact hentry ((h.get?_eq_forced_iff id s).1 hs).1
  unfold Frontier.entry
  cases hnote : f.notes.get? id with
  | none => exact Or.inl ⟨rfl, rfl⟩
  | some note =>
    cases note with
    | forced s => exact absurd hnote (hforced s)
    | merged s => exact Or.inr ⟨s, rfl, rfl⟩

/-- A guarded push takes the arguments of the method. -/
theorem effectOn_of_recognize {i : Instruction} {push : GuardedPush}
    (h : p.recognize i = some push) (size : Nat) :
    ∃ e, i.effectOn size = .ok e ∧ e.pops = argumentCount i.code push.method.signature := by
  obtain ⟨hcode, hmethod⟩ := recognize_eq_some h
  have hsig : i.operand.signature? = some push.method.signature := by
    cases hoperand : i.operand with
    | method m =>
      rw [hoperand] at hmethod
      obtain rfl := Option.some.inj hmethod
      rfl
    | _ => rw [hoperand] at hmethod; cases hmethod
  have hpop : i.popCount = .ok (argumentCount i.code push.method.signature) := by
    rw [Instruction.popCount, hsig, hcode]
    rfl
  obtain ⟨e, he, hpops⟩ := i.exists_effect_of_popCount hpop
  refine ⟨e, ?_, hpops⟩
  rw [Instruction.effectOn, he, hcode]
  rfl

/-- At a handler's entry there is nothing to push but the exception. -/
theorem refuses_handlerState (htaints : p.taintsException = true) {i : Instruction}
    {push : GuardedPush} (hpush : p.recognize i = some push)
    (harguments : 0 < argumentCount i.code push.method.signature) :
    p.Refuses i p.handlerState := by
  obtain ⟨e, he, hpops⟩ := effectOn_of_recognize hpush p.handlerState.size
  refine ⟨by rw [hpush]; rfl, e, he, ?_⟩
  have hsize : p.handlerState.size = 1 := rfl
  have htainted : p.handlerState.tainted = 1 := by rw [handlerState, htaints]; rfl
  unfold StackState.UsesTainted
  omega

theorem exists_fault_of_push_at_entry (htaints : p.taintsException = true) {id : InstructionId}
    (hentry : b.IsHandlerEntry id) {i : Instruction} (hget : b.get? id = some i)
    {push : GuardedPush} (hpush : p.recognize i = some push)
    (harguments : 0 < argumentCount i.code push.method.signature) :
    ∃ fault, b.analyze p = .error fault := by
  cases h : b.analyze p with
  | error fault => exact ⟨fault, rfl⟩
  | ok states =>
    obtain ⟨f, v, hreached, hvisit, -⟩ := (states_of_analyze p b states h).2 id i hget
    obtain ⟨-, htransfer, -, -⟩ := visit_eq_ok p b.size id i f v hvisit
    rw [hreached.entry_of_isHandlerEntry hentry] at htransfer
    exact absurd (refuses_handlerState htaints hpush harguments)
      (not_refuses_of_transfer_eq_ok p id i htransfer)

/-- A body with a guarded push is checked by the pass. -/
theorem validate_eq_error_of_analyze {id : InstructionId} {i : Instruction} {push : GuardedPush}
    (hget : b.get? id = some i) (hpush : p.recognize i = some push) {fault : Fault}
    (h : b.analyze p = .error fault) : b.validate p = .error fault := by
  have hany : b.hasPush p = true := by
    unfold Body.hasPush
    rw [List.any_eq_true]
    exact ⟨i, List.mem_of_getElem? hget, by rw [hpush]; rfl⟩
  unfold Body.validate
  rw [if_pos hany, h]
  rfl

/-- **The entries of handlers are forced for the whole run.**  Wherever the pass gets, the forced
notes are exactly those of the entries of typed handlers, of filters and of their handlers, and they
say that the exception, tainted or not, is alone on the stack.  So if the pass succeeds, this is the
state at every entry in the body, and at every other instruction the state is what comes from the
instruction before, joined with what branches bring.  If the exception is tainted and an entry is a
guarded push that takes an argument, the pass fails, and the check with it. -/
theorem handler_entries_forced (p : Policy) (b : Body) :
    (∀ id f, Reached p b id f → ∀ place s, f.notes.get? place = some (.forced s) ↔
      (∃ h ∈ b.handlers, h.EntersAt place) ∧
        s = .clamp 1 (if p.taintsException then 1 else 0)) ∧
    (∀ states, b.analyze p = .ok states → ∀ id < b.size,
      ((∃ h ∈ b.handlers, h.EntersAt id) →
        states[id]? = some (.clamp 1 (if p.taintsException then 1 else 0))) ∧
      ((¬ ∃ h ∈ b.handlers, h.EntersAt id) → ∃ f, Reached p b id f ∧
        (f.notes.get? id = none ∧ states[id]? = some f.state ∨
          ∃ s, f.notes.get? id = some (.merged s) ∧
            states[id]? = some (f.state.merge (.merged s))))) ∧
    (p.taintsException = true → ∀ id i push, (∃ h ∈ b.handlers, h.EntersAt id) →
      b.get? id = some i → p.recognize i = some push →
      0 < argumentCount i.code push.method.signature →
      ∃ fault, b.analyze p = .error fault ∧ b.validate p = .error fault) := by
  simp only [← b.isHandlerEntry_iff]
  refine ⟨fun id f hf => hf.get?_eq_forced_iff, fun states h id hid => ?_, ?_⟩
  · obtain ⟨i, hget⟩ := b.get?_eq_some_of_lt id hid
    obtain ⟨f, v, hreached, hvisit, hstate⟩ := (states_of_analyze p b states h).2 id i hget
    rw [(visit_eq_ok p b.size id i f v hvisit).1] at hstate
    rw [hstate]
    refine ⟨fun hentry => ?_, fun hentry => ⟨f, hreached, ?_⟩⟩
    · rw [hreached.entry_of_isHandlerEntry hentry]
      rfl
    · simp only [Option.some.injEq]
      exact hreached.entry_of_not_isHandlerEntry hentry
  · intro htaints id i push hentry hget hpush harguments
    obtain ⟨fault, hfault⟩ := exists_fault_of_push_at_entry htaints hentry hget hpush harguments
    exact ⟨fault, hfault, validate_eq_error_of_analyze hget hpush hfault⟩

/-- Two handlers share their entry, to which a branch leads and control falls through.  A block that
always runs and a filter stand behind. -/
def sharedEntry (atFilter : Instruction) : Body where
  name := "sharedEntry"
  instructions := [{ code := .ldarg0 }, { code := .ldarg0 },
    { code := .brtrueS, operand := .target (some 3) }, { code := .pop }, { code := .endfinally },
    atFilter, { code := .ret }]
  handlers := [{ kind := .cleanup, handlerStart := some 4 },
    { kind := .filter, handlerStart := some 3, filterStart := some 5 },
    { kind := .typed, handlerStart := some 3 }]

/-- A guarded push of one value. -/
def pushValue : Instruction :=
  { code := .call, operand := .method ⟨"InlineIL.IL", "Push", ⟨{}, ["!!0"], none⟩⟩ }

/-- The exception is on the stack at both entries, and no note is forced where the block starts that
always runs.  A filter that begins by pushing the exception is refused. -/
theorem sharedEntry_forced :
    (∃ states, (sharedEntry { code := .pop }).analyze {} = .ok states ∧
      states[3]? = some (.clamp 1 1) ∧ states[5]? = some (.clamp 1 1) ∧
      ∀ f, Reached {} (sharedEntry { code := .pop }) 4 f →
        ∀ s, f.notes.get? 4 ≠ some (.forced s)) ∧
    ∃ fault, (sharedEntry pushValue).validate {} = .error fault := by
  obtain ⟨hnotes, hstates, -⟩ := handler_entries_forced {} (sharedEntry { code := .pop })
  obtain ⟨-, -, hfails⟩ := handler_entries_forced {} (sharedEntry pushValue)
  have hanalyze : (sharedEntry { code := .pop }).analyze {} = .ok [.empty, .clamp 1 0, .clamp 2 0,
      .clamp 1 1, .empty, .clamp 1 1, .empty] := by decide
  constructor
  · refine ⟨_, hanalyze, (hstates _ hanalyze 3 (by decide)).1 (by decide),
      (hstates _ hanalyze 5 (by decide)).1 (by decide), fun f hf s hs => ?_⟩
    exact absurd ((hnotes 4 f hf 4 s).1 hs).1 (by decide)
  · obtain ⟨fault, -, hfault⟩ := hfails rfl 5 pushValue
      ⟨.value, ⟨"InlineIL.IL", "Push", ⟨{}, ["!!0"], none⟩⟩⟩ (by decide) rfl rfl (by decide)
    exact ⟨fault, hfault⟩

end Policy

end PushGuard
