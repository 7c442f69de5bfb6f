import PushGuard.Text.Digits

/-!
# Why a listing is refused
-/

namespace PushGuard

/-- Why the operand of an instruction cannot be read. -/
inductive OperandFault
  | noParameters (text : String)
  | openParameters (text : String)
  | noMember (text : String)
  | noReturnType (text : String)
  | malformedMethod (text : String)
  | notAString (text : String)
  | unknownEscape (c : Char)
  | openEscape
  | notAnInteger (text : String)
  | outOfRange (text : String)
  | notAByte (text : String)
  | notAFloat (text : String)
  /-- The operand is a label or there is none, so it has no text of its own. -/
  | notReadable
  deriving DecidableEq

namespace OperandFault

def message : OperandFault → String
  | noParameters text => "expected a parameter list in `" ++ text ++ "`"
  | openParameters text => "unterminated parameter list in `" ++ text ++ "`"
  | noMember text => "expected `TYPE::NAME` in `" ++ text ++ "`"
  | noReturnType text => "expected a return type in `" ++ text ++ "`"
  | malformedMethod text => "malformed method reference `" ++ text ++ "`"
  | notAString text => "expected a string literal, found `" ++ text ++ "`"
  | unknownEscape c => "unknown escape `\\" ++ String.ofList [c] ++ "`"
  | openEscape => "unterminated escape"
  | notAnInteger text => "invalid integer `" ++ text ++ "`"
  | outOfRange text => "integer `" ++ text ++ "` is out of range"
  | notAByte text => "`" ++ text ++ "` does not fit in a byte"
  | notAFloat text => "invalid floating point `" ++ text ++ "`"
  | notReadable => "unexpected operand"

end OperandFault

/-- Why a line of a listing is refused. -/
inductive LineFault
  | nestedMethod
  | unnamedMethod
  | endOutside
  | instructionOutside
  | missingEnd
  | labelPlaced (label : String) (line : Nat)
  | unknownOpcode (mnemonic : String)
  | surplusOperand (mnemonic : String)
  | missingOperand (mnemonic : String)
  | switchLabels
  | handlerLabels (directive : String)
  | unknownDirective (directive : String)
  | labelNotPlaced (label : String)
  | labelAtEnd
  | operand (fault : OperandFault)
  deriving DecidableEq

namespace LineFault

def message : LineFault → String
  | nestedMethod => "`.method` inside of another method"
  | unnamedMethod => "`.method` needs a name"
  | endOutside => "`.end` outside of a method"
  | instructionOutside => "instruction outside of a method"
  | missingEnd => "missing `.end`"
  | labelPlaced label line =>
    "label `" ++ label ++ "` already placed on line " ++ Text.decimal line
  | unknownOpcode mnemonic => "unknown opcode `" ++ mnemonic ++ "`"
  | surplusOperand mnemonic => "`" ++ mnemonic ++ "` does not take an operand"
  | missingOperand mnemonic => "`" ++ mnemonic ++ "` needs an operand"
  | switchLabels => "expected `(label, ...)` after `switch`"
  | handlerLabels directive => "wrong number of labels for `" ++ directive ++ "`"
  | unknownDirective directive => "unknown directive `" ++ directive ++ "`"
  | labelNotPlaced label => "label `" ++ label ++ "` is never placed"
  | labelAtEnd => "label at the end of the method"
  | operand fault => fault.message

end LineFault

/-- A refused listing, with the line that is to blame. -/
structure ListingFault where
  line : Nat
  cause : LineFault
  deriving DecidableEq

def ListingFault.message (fault : ListingFault) : String :=
  "line " ++ Text.decimal fault.line ++ ": " ++ fault.cause.message

end PushGuard
