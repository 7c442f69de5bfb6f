import PushGuard.Text.Digits

/-!
# Signatures and method references
-/

namespace PushGuard

/-- How the receiver of a call is passed. -/
structure Convention where
  /-- There is a receiver. -/
  hasThis : Bool := false
  /-- The receiver stands among the parameters. -/
  explicitThis : Bool := false
  deriving DecidableEq

/-- The shape of something that can be called: a method or a function pointer. -/
structure Signature where
  convention : Convention := {}
  /-- The types of the parameters, as a listing spells them. -/
  parameters : List String
  /-- The type of the result; there is none if nothing is returned. -/
  returnType : Option String
  deriving DecidableEq

namespace Signature

/-- The caller pushes a receiver that is not among the parameters. -/
def implicitReceiver (sig : Signature) : Bool :=
  sig.convention.hasThis && !sig.convention.explicitThis

def returnsValue (sig : Signature) : Bool := sig.returnType.isSome

/-- The result type as a listing spells it. -/
def returnText (sig : Signature) : String := sig.returnType.getD "void"

/-- The parameter list as a listing spells it. -/
def parameterText (sig : Signature) : String :=
  "(" ++ String.intercalate ", " sig.parameters ++ ")"

/-- The words in front of a result type. -/
def conventionText (sig : Signature) : String :=
  (if sig.convention.hasThis then "instance " else "")
    ++ (if sig.convention.explicitThis then "explicit " else "")

/-- The signature as a listing spells it, for instance `instance int32(string)`. -/
def text (sig : Signature) : String := sig.conventionText ++ sig.returnText ++ sig.parameterText

end Signature

/-- The method that a call names. -/
structure MethodRef where
  declaringType : String
  /-- Without generic arguments. -/
  name : String
  signature : Signature
  deriving DecidableEq

namespace MethodRef

/-- The name with its types, for instance `void System.Console::WriteLine(string)`. -/
def fullName (method : MethodRef) : String :=
  method.signature.returnText ++ " " ++ method.declaringType ++ "::" ++ method.name
    ++ method.signature.parameterText

end MethodRef

/-- The last part of a type's name, after the namespaces and the enclosing types. -/
def shortTypeName (name : String) : String :=
  String.ofList (name.toList.reverse.takeWhile fun c => c != '.' && c != '/').reverse

end PushGuard
