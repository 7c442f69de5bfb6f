import PushGuard.Instruction

/-!
# Guarded pushes

A policy says which calls are guarded pushes and what is suggested for a refused one.
-/

namespace PushGuard

structure Policy where
  /-- The type that declares the guarded methods. -/
  pushType : String := "InlineIL.IL"
  /-- Pushes a value. -/
  pushMethod : String := "Push"
  /-- Pushes a value by reference. -/
  pushInRefMethod : String := "PushInRef"
  /-- Pushes a reference that takes a result. -/
  pushOutRefMethod : String := "PushOutRef"
  /-- Suggested for a refused push of a value. -/
  ensureLocalMethod : String := "EnsureLocal"
  /-- The exception at the entry of a handler is tainted. -/
  taintsException : Bool := true

inductive PushKind
  | value | inRef | outRef
  deriving DecidableEq

/-- A call of a guarded method. -/
structure GuardedPush where
  kind : PushKind
  method : MethodRef
  deriving DecidableEq

namespace Policy

/-- The kind of push that a method of the guarded type performs. -/
def kindOf? (p : Policy) (name : String) : Option PushKind :=
  if name = p.pushMethod then some .value
  else if name = p.pushInRefMethod then some .inRef
  else if name = p.pushOutRefMethod then some .outRef
  else none

/-- The guarded push that an instruction performs.  Only a plain `call` counts. -/
def recognize (p : Policy) (i : Instruction) : Option GuardedPush :=
  if i.code = .call then
    match i.operand.method? with
    | some method =>
      if method.declaringType = p.pushType then
        (p.kindOf? method.name).map fun kind => ⟨kind, method⟩
      else none
    | none => none
  else none

/-- What to do about a refused push, if it is one of a single value. -/
def hint (p : Policy) (push : GuardedPush) : Option String :=
  let byValue := match push.method.signature.parameters with
    | [parameter] => parameter.toList.getLast? != some '&'
    | _ => false
  if push.kind == .value && byValue && !push.method.signature.returnsValue then
    some ("You may be able to make the IL layout safe by using " ++ shortTypeName p.pushType ++ "."
      ++ p.ensureLocalMethod ++ ".")
  else none

end Policy

end PushGuard
