import PluginSurface.Source.Span

/-!
Errors and warnings located in source texts. A list of diagnostics keeps the
first twenty errors and counts all of them.
-/

namespace PluginSurface

inductive Severity where
  | error
  | warning
deriving DecidableEq, Inhabited

def Severity.text : Severity → String
  | .error => "error"
  | .warning => "warning"

/-- The number of an error. Its hundreds tell the category. -/
structure ErrorCode where
  number : Nat
deriving DecidableEq, Inhabited

namespace ErrorCode

def unexpectedToken : ErrorCode := ⟨100⟩
def unterminatedString : ErrorCode := ⟨101⟩
def unexpectedCharacter : ErrorCode := ⟨102⟩
def invalidNumber : ErrorCode := ⟨103⟩
def unterminatedComment : ErrorCode := ⟨104⟩
def nestingTooDeep : ErrorCode := ⟨105⟩
def invalidDecorator : ErrorCode := ⟨200⟩
def missingType : ErrorCode := ⟨201⟩
def unsupportedDeclaration : ErrorCode := ⟨202⟩
def tooManyParameters : ErrorCode := ⟨300⟩
def reservedParameterName : ErrorCode := ⟨301⟩

def text (code : ErrorCode) : String :=
  "E" ++ toString code.number

/-- The category that a code's range stands for. -/
def category (code : ErrorCode) : String :=
  if 200 ≤ code.number && code.number ≤ 299 then "declaration"
  else if 300 ≤ code.number && code.number ≤ 399 then "transform"
  else "syntax"

end ErrorCode

/-- An error or a warning at a place of a source text. -/
structure Diagnostic where
  file : String
  code : ErrorCode
  severity : Severity
  message : String
  span : Span
  /-- The text of the line it starts on. -/
  sourceLine : String
  suggestion : Option String
deriving DecidableEq, Inhabited

namespace Diagnostic

def error (file : String) (code : ErrorCode) (message : String) (span : Span)
    (sourceLine : String) : Diagnostic :=
  ⟨file, code, .error, message, span, sourceLine, none⟩

def text (diagnostic : Diagnostic) : String :=
  diagnostic.file ++ ":" ++ diagnostic.span.text ++ ": " ++
    diagnostic.code.text ++ " [" ++ diagnostic.code.category ++ "] " ++
    diagnostic.message

def toJson (diagnostic : Diagnostic) : Json :=
  .object <|
    [("file", .string diagnostic.file),
      ("code", Json.ofNat diagnostic.code.number),
      ("severity", .string diagnostic.severity.text),
      ("category", .string diagnostic.code.category),
      ("message", .string diagnostic.message)] ++
    diagnostic.span.members ++
    [("source_line", .string diagnostic.sourceLine)] ++
    match diagnostic.suggestion with
    | some suggestion => [("suggestion", .string suggestion)]
    | none => []

end Diagnostic

/-- The errors and warnings of one stage. -/
structure Diagnostics where
  /-- The first errors, at most `Diagnostics.storedLimit` of them. -/
  errors : List Diagnostic
  warnings : List Diagnostic
  errorCount : Nat
  warningCount : Nat
deriving DecidableEq, Inhabited

namespace Diagnostics

def storedLimit : Nat :=
  20

def empty : Diagnostics :=
  ⟨[], [], 0, 0⟩

def hasErrors (diagnostics : Diagnostics) : Bool :=
  0 < diagnostics.errorCount

/-- Whether as many errors were reported as are kept. -/
def isFull (diagnostics : Diagnostics) : Bool :=
  storedLimit ≤ diagnostics.errorCount

/-- Reports an error. It is counted, and kept if there is room. -/
def push (diagnostics : Diagnostics) (error : Diagnostic) : Diagnostics :=
  { diagnostics with
    errors :=
      if diagnostics.errors.length < storedLimit then
        diagnostics.errors ++ [error]
      else diagnostics.errors
    errorCount := diagnostics.errorCount + 1 }

def pushWarning (diagnostics : Diagnostics) (warning : Diagnostic) :
    Diagnostics :=
  { diagnostics with
    warnings := diagnostics.warnings ++ [warning]
    warningCount := diagnostics.warningCount + 1 }

/-- Reports all errors and warnings of another list after one's own; errors
that the other list did not keep are counted. -/
def extend (diagnostics other : Diagnostics) : Diagnostics :=
  let pushed := other.errors.foldl push diagnostics
  let counted :=
    { pushed with
      errorCount :=
        pushed.errorCount + (other.errorCount - other.errors.length) }
  other.warnings.foldl pushWarning counted

/-- One line per kept error, and the number of those not kept. -/
def text (diagnostics : Diagnostics) : String :=
  String.intercalate "\n" (diagnostics.errors.map Diagnostic.text) ++
    if diagnostics.errors.length < diagnostics.errorCount then
      "\n... and " ++
        toString (diagnostics.errorCount - diagnostics.errors.length) ++
        " more"
    else ""

def toJson (diagnostics : Diagnostics) : Json :=
  .object
    [("errors", .array (diagnostics.errors.map Diagnostic.toJson)),
      ("warnings", .array (diagnostics.warnings.map Diagnostic.toJson)),
      ("total_errors", Json.ofNat diagnostics.errorCount),
      ("total_warnings", Json.ofNat diagnostics.warningCount)]

end Diagnostics

end PluginSurface
