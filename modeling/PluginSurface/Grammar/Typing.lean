import PluginSurface.Grammar.Parse

/-!
Parsing type annotations: dotted names with type arguments, parentheses, any
number of `[]` and at most one `| null` at each level.
-/

namespace PluginSurface.Grammar

open Parse

def isNullWord (kind : TokenKind) : Bool :=
  kind.isKeyword .nullWord

/-- A segment of a type name, which may be the word `null`. -/
def typeSegment : Parse Name := do
  if ← atKeyword .nullWord then takeName Keyword.nullWord.text
  else expectIdentifier

/-- The segments that follow the first one, each after a dot. -/
def moreSegments : Nat → Parse (List Name)
  | 0 => failHere .expectedIdentifier
  | bound + 1 => do
      if ← eatSymbol .dot then
        let segment ← typeSegment
        let rest ← moreSegments bound
        return segment :: rest
      else return []

/-- A type in parentheses or a named type. -/
def primaryType (nested : Parse TypeExpr) : Parse TypeExpr := do
  let start ← currentSpan
  if ← eatSymbol .openParen then
    let inner ← nested
    expectSymbol .closeParen
    return inner.withSpan (← spanFrom start)
  else
    let first ← typeSegment
    let more ← moreSegments (← stepBound)
    let arguments ←
      if ← eatSymbol .less then do
        let arguments ← separated nested
        expectClosingAngle
        pure arguments
      else pure []
    return .named (first :: more) arguments (← spanFrom start)

/-- Wraps a type once for each `[]` that follows. -/
def arraySuffixes (start : Span) : Nat → TypeExpr → Parse TypeExpr
  | 0, type => pure type
  | bound + 1, type => do
      let closes ← inspect fun state =>
        (state.lookAhead 1).isSymbol .closeBracket
      if (← atSymbol .openBracket) && closes then
        advance
        advance
        arraySuffixes start bound (.array type (← spanFrom start))
      else return type

/-- One type, with the types nested in it given by another parser. -/
def typeStep (nested : Parse TypeExpr) : Parse TypeExpr := do
  let start ← currentSpan
  let type ← primaryType nested
  let type ← arraySuffixes start (← stepBound) type
  let isNull ← inspect fun state => isNullWord (state.lookAhead 1)
  if (← atSymbol .pipe) && isNull then
    advance
    advance
    return .nullable type (← spanFrom start)
  else return type

/-- A type whose parts nest to a bounded depth. -/
def typeAt : Nat → Parse TypeExpr
  | 0 => failHere .expectedIdentifier
  | bound + 1 => typeStep (typeAt bound)

def typeExpr : Parse TypeExpr := do
  typeAt (← stepBound)

/-- How a token changes the number of open angles in what may be a list of
type arguments; no other token can stand there. -/
def angleChange? : TokenKind → Option Int
  | .symbol .less => some 1
  | .symbol .greater => some (-1)
  | .symbol .doubleGreater => some (-2)
  | .symbol .tripleGreater => some (-3)
  | .symbol .dot | .symbol .comma | .symbol .openBracket
  | .symbol .closeBracket | .symbol .pipe => some 0
  | .identifier _ => some 0
  | .keyword .nullWord => some 0
  | _ => none

/-- Whether the open angles close right before an opening parenthesis. -/
def closesBeforeCall (depth : Int) : List Token → Bool
  | [] => false
  | token :: rest =>
      match angleChange? token.kind with
      | none => false
      | some change =>
          let depth := depth + change
          if depth < 0 then false
          else if depth = 0 then
            match rest with
            | next :: _ => next.kind.isSymbol .openParen
            | [] => false
          else closesBeforeCall depth rest

/-- Whether the tokens at the front look like type arguments of a call. -/
def looksLikeTypeArguments : Parse Bool :=
  inspect fun state =>
    state.current.kind.isSymbol .less && closesBeforeCall 0 state.rest

end PluginSurface.Grammar
