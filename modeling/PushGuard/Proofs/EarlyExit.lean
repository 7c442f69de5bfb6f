import PushGuard.Proofs.KnownEffects
import PushGuard.Proofs.Pass
import PushGuard.Report

/-!
# The early exit agrees with the full analysis

A body without guarded pushes is accepted without a pass.  The pass over it could still fail, at an
instruction whose effect is not known; but no such instruction is ever read.  So on what the readers
give, checking a body and analyzing it come to the same answer (`Body.validate_eq_map_analyze`), and
the command reports the same outcomes whether or not it shows the states.
-/

namespace PushGuard

namespace Body

/-- The body was read from a listing or from its binary form. -/
inductive Materialized : Body → Prop
  | listing {source : String} {bodies : List Body} {b : Body} :
      Listing.read source = .ok bodies → b ∈ bodies → Materialized b
  | binary {tokens : TokenTable} {name : String} {bytes : List UInt8} {b : Body} :
      Binary.read tokens name bytes = .ok b → Materialized b

theorem Materialized.recognized {b : Body} (h : b.Materialized) :
    ∀ i ∈ b.instructions, i.Recognized := by
  cases h with
  | listing hread hmem => exact Listing.recognized_of_read _ _ hread b hmem
  | binary hread => exact Binary.recognized_of_read _ _ _ b hread

theorem validate_eq_map_analyze (p : Policy) (b : Body)
    (hknown : ∀ i ∈ b.instructions, i.Recognized) :
    b.validate p = (b.analyze p).map fun _ => () := by
  unfold validate
  by_cases hpush : b.hasPush p = true
  · rw [if_pos hpush]
    cases b.analyze p <;> rfl
  · rw [if_neg hpush]
    cases h : b.analyze p with
    | ok states => rfl
    | error fault =>
      exfalso
      obtain ⟨_, i, _, push, _, hget, hrecognize, _, _⟩ :=
        Policy.refusal_of_analyze p b fault hknown h
      apply hpush
      unfold hasPush
      rw [List.any_eq_true]
      exact ⟨i, List.mem_of_getElem? hget, by rw [hrecognize]; rfl⟩

end Body

namespace Report

/-- The check comes to the same answer with and without the states. -/
theorem map_check (o : Options) (b : Body) (hknown : ∀ i ∈ b.instructions, i.Recognized)
    (states : Bool) :
    (check { o with states } b).map (fun _ => ()) = b.validate o.policy := by
  cases states with
  | true =>
    show ((b.analyze o.policy).map some).map _ = _
    rw [Body.validate_eq_map_analyze o.policy b hknown]
    cases b.analyze o.policy <;> rfl
  | false =>
    show ((b.validate o.policy).map _).map _ = _
    cases b.validate o.policy <;> rfl

/-- The outcome of a check that comes to this answer. -/
def outcomeOf : Except Fault Unit → Outcome
  | .ok _ => .ok
  | .error _ => .failed

/-- The report on a method begins with the line for its outcome. -/
theorem line_isPrefix_ofBody (o : Options) (path : String) (b : Body) :
    (outcomeOf ((check o b).map fun _ => ())).line (path ++ ": " ++ b.name) <+:
      (ofBody o path b).pieces := by
  refine List.IsPrefix.trans ?_ (List.prefix_append _ _)
  unfold ofCheck
  cases check o b with
  | ok states => exact List.prefix_append _ _
  | error fault => exact List.prefix_refl _

/-- Two reports count alike. -/
def SameCounts (a b : Report) : Prop :=
  a.passed = b.passed ∧ a.failed = b.failed ∧ a.unread = b.unread

theorem SameCounts.append {a a' b b' : Report} (h : SameCounts a a') (h' : SameCounts b b') :
    SameCounts (a.append b) (a'.append b') := by
  obtain ⟨h1, h2, h3⟩ := h
  obtain ⟨h1', h2', h3'⟩ := h'
  refine ⟨?_, ?_, ?_⟩
  · show a.passed + b.passed = a'.passed + b'.passed
    rw [h1, h1']
  · show a.failed + b.failed = a'.failed + b'.failed
    rw [h2, h2']
  · show a.unread + b.unread = a'.unread + b'.unread
    rw [h3, h3']

theorem SameCounts.concat_map {α : Type} (f g : α → Report) (xs : List α)
    (h : ∀ x ∈ xs, SameCounts (f x) (g x)) :
    SameCounts (concat (xs.map f)) (concat (xs.map g)) := by
  induction xs with
  | nil => exact ⟨rfl, rfl, rfl⟩
  | cons x xs ih =>
    exact (h x List.mem_cons_self).append (ih fun y hy => h y (List.mem_cons_of_mem x hy))

theorem SameCounts.exitCode_eq {a b : Report} (h : SameCounts a b) : a.exitCode = b.exitCode := by
  unfold exitCode
  rw [h.2.1, h.2.2]

/-- The counts of a check follow from the answer it comes to. -/
theorem sameCounts_ofCheck (o o' : Options) (name : String) (b : Body)
    (h : (check o b).map (fun _ => ()) = (check o' b).map fun _ => ()) :
    SameCounts (ofCheck o name b) (ofCheck o' name b) := by
  unfold ofCheck
  cases hcheck : check o b with
  | ok states =>
    cases hcheck' : check o' b with
    | ok states' => exact ⟨rfl, rfl, rfl⟩
    | error fault => rw [hcheck, hcheck'] at h; cases h
  | error fault =>
    cases hcheck' : check o' b with
    | ok states => rw [hcheck, hcheck'] at h; cases h
    | error fault' => exact ⟨rfl, rfl, rfl⟩

theorem sameCounts_ofFile (o : Options) (file : SourceFile) (states states' : Bool) :
    SameCounts (ofFile { o with states } file) (ofFile { o with states := states' } file) := by
  unfold ofFile
  cases hread : file.read with
  | error fault => exact ⟨rfl, rfl, rfl⟩
  | ok bodies =>
    have hknown : ∀ b ∈ bodies, ∀ i ∈ b.instructions, i.Recognized := by
      unfold SourceFile.read at hread
      split at hread
      · cases hread
      · split at hread
        · cases hread
        · split at hread
          · next bodies' hlisting =>
            obtain rfl := Except.ok.inj hread
            exact Listing.recognized_of_read _ _ hlisting
          · cases hread
    apply SameCounts.concat_map
    intro b hb
    apply SameCounts.append
    · apply sameCounts_ofCheck
      rw [map_check o b (hknown b hb) states, map_check o b (hknown b hb) states']
    · exact ⟨rfl, rfl, rfl⟩

end Report

/-- **The early exit agrees with the full analysis.**  On every body that is read from a listing or
from bytes, and for every policy: the check gives the answer of the pass without its states, and the
pass fails only with a refused push.  So the outcome that the command reports for a method, and its
exit code, do not depend on whether it shows the states. -/
theorem validate_agrees_with_analyze :
    (∀ b : Body, b.Materialized → ∀ p : Policy,
      b.validate p = ((b.analyze p).map fun _ => ()) ∧
      ∀ fault, b.analyze p = .error fault → ∃ id method hint, fault = .taintedPush id method hint) ∧
    (∀ b : Body, b.Materialized → ∀ (o : Options) (path : String) (states : Bool),
      (Report.outcomeOf (b.validate o.policy)).line (path ++ ": " ++ b.name) <+:
        (Report.ofBody { o with states } path b).pieces) ∧
    ∀ (o : Options) (files : List SourceFile) (states states' : Bool),
      (Report.ofFiles { o with states } files).exitCode =
        (Report.ofFiles { o with states := states' } files).exitCode := by
  refine ⟨fun b hb p => ⟨?_, fun fault h => ?_⟩, fun b hb o path states => ?_, ?_⟩
  · exact Body.validate_eq_map_analyze p b hb.recognized
  · obtain ⟨id, _, _, push, _, _, _, _, hfault⟩ :=
      Policy.refusal_of_analyze p b fault hb.recognized h
    exact ⟨id, push.method, p.hint push, hfault⟩
  · rw [← Report.map_check o b hb.recognized states]
    exact Report.line_isPrefix_ofBody { o with states } path b
  · intro o files states states'
    apply Report.SameCounts.exitCode_eq
    exact Report.SameCounts.concat_map _ _ files fun file _ =>
      Report.sameCounts_ofFile o file states states'

/-- A listing in which the only call is no guarded push. -/
def callListing : String :=
  ".method M\nldarg.0\ncallvirt instance int32 T::F()\nret\n.end"

theorem callListing_accepted : ∃ b : Body, b.Materialized ∧ b.hasPush {} = false ∧
    ((b.analyze {}).map fun _ => ()) = .ok () := by
  let body := Body.ofInstructions "M" [{ code := .ldarg0 },
    { code := .callvirt, operand := .method ⟨"T", "F", ⟨{ hasThis := true }, [], some "int32"⟩⟩ },
    { code := .ret }] []
  have hread : Listing.read callListing = .ok [body] := by decide +kernel
  have hbody : body.Materialized := .listing hread List.mem_cons_self
  refine ⟨body, hbody, rfl, ?_⟩
  rw [← (validate_agrees_with_analyze.1 body hbody {}).1]
  rfl

end PushGuard
