import PluginSurface.Syntax.Token
import PluginSurface.Source.Diagnostic
import PluginSurface.Source.Text

/-!
What can be wrong with a source text, with the code and the message of each
fault.
-/

namespace PluginSurface

/-- A fault in a source text. -/
inductive SyntaxFault where
  | unterminatedComment
  | unterminatedString
  | unterminatedEscape
  | unexpectedCharacter (char : Char)
  | invalidNumber (spelling : String)
  | invalidEscape (char : Char)
  | invalidUnicodeEscape
  | interpolation
  | expectedToken (expected found : TokenKind)
  | expectedIdentifier (found : TokenKind)
  | expectedString (found : TokenKind)
  | expectedExpression (found : TokenKind)
  | expectedDeclaration (found : TokenKind)
  | invalidAssignmentTarget
  | nestingTooDeep (limit : Nat)
  | externalArgument
  | externalArity (count : Nat)
  | untypedField (name : String)
  | untypedParameter (name : String)
  | optionalParameter (name : String)
  | unsupportedDeclaration (word : String)
  | exportAll
  | declaredBody (name : String)
deriving Inhabited

namespace SyntaxFault

def code : SyntaxFault → ErrorCode
  | unterminatedComment => .unterminatedComment
  | unterminatedString | unterminatedEscape => .unterminatedString
  | unexpectedCharacter _ => .unexpectedCharacter
  | invalidNumber _ => .invalidNumber
  | nestingTooDeep _ => .nestingTooDeep
  | externalArgument | externalArity _ => .invalidDecorator
  | untypedField _ | untypedParameter _ | optionalParameter _ =>
      .missingType
  | unsupportedDeclaration _ | exportAll | declaredBody _ =>
      .unsupportedDeclaration
  | _ => .unexpectedToken

def message : SyntaxFault → String
  | unterminatedComment => "unterminated block comment"
  | unterminatedString => "unterminated string literal"
  | unterminatedEscape => "unexpected end of file in escape sequence"
  | unexpectedCharacter char =>
      "unexpected character '" ++ String.singleton char ++ "'"
  | invalidNumber spelling => "invalid numeric literal '" ++ spelling ++ "'"
  | invalidEscape char =>
      "invalid escape sequence '\\" ++ String.singleton char ++ "'"
  | invalidUnicodeEscape => "invalid unicode escape"
  | interpolation => "template interpolation is not supported"
  | expectedToken expected found =>
      "expected '" ++ expected.text ++ "', got '" ++ found.text ++ "'"
  | expectedIdentifier found =>
      "expected identifier, got '" ++ found.text ++ "'"
  | expectedString found =>
      "expected string literal, got '" ++ found.text ++ "'"
  | expectedExpression found =>
      "expected expression, got '" ++ found.text ++ "'"
  | expectedDeclaration found =>
      "expected a declaration, got '" ++ found.text ++ "'"
  | invalidAssignmentTarget => "invalid assignment target"
  | nestingTooDeep limit =>
      "maximum expression nesting depth is " ++ toString limit
  | externalArgument => "@external arguments must be string literals"
  | externalArity count =>
      "@external takes one or two arguments, got " ++ toString count
  | untypedField name => "field '" ++ name ++ "' is missing a type annotation"
  | untypedParameter name =>
      "parameter '" ++ name ++ "' is missing a type annotation"
  | optionalParameter name =>
      "optional parameter '" ++ name ++
        "' needs a default value instead of '?'"
  | unsupportedDeclaration word =>
      "'" ++ word ++ "' declarations are not supported"
  | exportAll => "'export *' re-exports are not supported"
  | declaredBody name =>
      "declared function '" ++ name ++ "' cannot have a body"

/-- The diagnostic of a fault in a source, with the line it starts on. -/
def diagnostic (source : SourceText) (fault : SyntaxFault) (span : Span) :
    Diagnostic :=
  Diagnostic.error source.name fault.code fault.message span
    (source.lineText span.start.line)

end SyntaxFault

end PluginSurface
