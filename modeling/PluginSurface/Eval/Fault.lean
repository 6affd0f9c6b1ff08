import PluginSurface.Eval.Value
import PluginSurface.Optional.Mask
import PluginSurface.Syntax.Operator

/-!
What can go wrong when a program runs.
-/

namespace PluginSurface

/-- A use of a value that its type does not allow. -/
inductive Misuse where
  | maskNotTaken (function : String)
  | indexNotInteger (found : String)
  | notCallable
  | notAssignable
  | assignInto (found : String)
  | noField (owner field : String)
  | notIndexable (found : String)
  | binaryOperands (operator : BinaryOperator) (left right : String)
  | unaryOperand (operator : UnaryOperator) (operand : String)
deriving DecidableEq, Inhabited

namespace Misuse

def message : Misuse → String
  | maskNotTaken function =>
      "'" ++ function ++ "' does not take a " ++ maskParameter ++ " argument"
  | indexNotInteger found => "index must be an integer, got " ++ found
  | notCallable => "callee is not callable"
  | notAssignable => "invalid assignment target"
  | assignInto found => "cannot assign into " ++ found
  | noField owner field => owner ++ " has no field '" ++ field ++ "'"
  | notIndexable found => "cannot index " ++ found
  | binaryOperands operator left right =>
      "cannot apply '" ++ operator.text ++ "' to " ++ left ++ " and " ++ right
  | unaryOperand operator operand =>
      "cannot apply '" ++ operator.text ++ "' to " ++ operand

end Misuse

/-- A use of null as an object. -/
inductive NullUse where
  | call (method : String)
  | assign
  | member (field : String)
  | index (index : Int)
deriving DecidableEq, Inhabited

namespace NullUse

def message : NullUse → String
  | .call method => "cannot call '" ++ method ++ "' on null"
  | .assign => "cannot assign through null"
  | .member field => "cannot access field '" ++ field ++ "' on null"
  | .index position => "cannot index null with " ++ toString position

end NullUse

/-- Why an evaluation stopped. -/
inductive Fault where
  | divisionByZero
  | undefinedVariable (name : String)
  | unknownFunction (name : String)
  | unknownMethod (owner method : String)
  /-- A function without a body, which only the host can run. -/
  | hostImport (name : String)
  | unknownClass (type : String)
  | arityMismatch (function : String) (expected found : Nat)
  | missingArgument (function parameter : String)
  | misuse (cause : Misuse)
  | nullAccess (cause : NullUse)
  | indexOutOfBounds (index : Int) (length : Nat)
  | thrown (value : Value)
  | gasExhausted
  | stackOverflow
deriving Inhabited

namespace Fault

def message : Fault → String
  | divisionByZero => "arithmetic trap: integer division by zero"
  | undefinedVariable name => "undefined variable: " ++ name
  | unknownFunction name => "unknown function: " ++ name
  | unknownMethod owner method =>
      "unknown function: " ++ owner ++ "." ++ method
  | hostImport name => "unknown function: " ++ name ++ " is a host import"
  | unknownClass type => "unknown class: " ++ type
  | arityMismatch function expected found =>
      "'" ++ function ++ "' takes " ++ toString expected ++ " arguments, " ++
        toString found ++ " were given"
  | missingArgument function parameter =>
      "'" ++ function ++ "': no argument and no default for '" ++ parameter ++
        "'"
  | misuse cause => "type mismatch: " ++ cause.message
  | nullAccess cause => "null access: " ++ cause.message
  | indexOutOfBounds index length =>
      "index " ++ toString index ++ " out of bounds for length " ++
        toString length
  | thrown value => "uncaught throw: " ++ value.text
  | gasExhausted => "gas exhausted"
  | stackOverflow => "call stack overflow"

end Fault

end PluginSurface
