import PluginSurface.Grammar.Expression

/-!
Parsing statements. A statement that cannot be read is skipped up to a place
where the next one may start, so that one run reports more than one fault.
-/

namespace PluginSurface.Grammar

open Parse

/-- Reserved words that start a statement which a reader can go on from. -/
def startsStatement : TokenKind → Bool
  | .keyword .ifWord | .keyword .returnWord | .keyword .letWord
  | .keyword .constWord | .keyword .varWord | .keyword .throwWord
  | .keyword .whileWord => true
  | _ => false

/-- Skips to after a semicolon, or to a closing brace or a word that starts a
statement. -/
def statementBoundary (previous : Span) : List Token → Span × List Token
  | [] => (previous, [])
  | token :: rest =>
      if token.kind.isEndOfFile then (previous, token :: rest)
      else if token.kind.isSymbol .semicolon then (token.span, rest)
      else if token.kind.isSymbol .closeBrace || startsStatement token.kind then
        (previous, token :: rest)
      else statementBoundary token.span rest

/-- Moves to the place that a rule for skipping gives. -/
def skipBy (rule : Span → List Token → Span × List Token) : Parse Unit :=
  fun state =>
    let (previous, rest) := rule state.previous state.rest
    (some (), { state with previous := previous, rest := rest })

def skipStatement : Parse Unit :=
  skipBy statementBoundary

/-- Goes on after a statement that could not be read and started at a given
place. -/
def recoverStatement (start : Span) : Parse Unit := do
  skipStatement
  if (← currentSpan) = start && !(← atSymbol .closeBrace) then advance

def statementsUntilBrace (statement : Parse StmtId) :
    Nat → Parse (List StmtId)
  | 0 => pure []
  | bound + 1 => do
      if (← atSymbol .closeBrace) || (← atEnd) || (← isFull) then return []
      let start ← currentSpan
      match ← attempt statement with
      | some first =>
          let rest ← statementsUntilBrace statement bound
          return first :: rest
      | none =>
          recoverStatement start
          statementsUntilBrace statement bound

/-- A block whose statements are given by another parser. -/
def blockOf (statement : Parse StmtId) : Parse Block := do
  let start ← currentSpan
  expectSymbol .openBrace
  let statements ← statementsUntilBrace statement (← stepBound)
  expectSymbol .closeBrace
  return ⟨statements, ← spanFrom start⟩

/-- An optional `: type`. -/
def optionalType : Parse (Option TypeExpr) := do
  if ← eatSymbol .colon then
    let type ← typeExpr
    return some type
  else return none

/-- An optional `= value`. -/
def optionalInitializer : Parse (Option ExprId) := do
  if ← eatSymbol .equal then
    let value ← expression
    return some value
  else return none

def optionalSemicolon : Parse Unit := do
  discard (eatSymbol .semicolon)

def bindingNode (kind : BindingKind) : Parse Stmt := do
  let name ← expectIdentifier
  let type ← optionalType
  let value ← optionalInitializer
  optionalSemicolon
  return .binding kind name type value

section

variable (statement : Parse StmtId)

def branchNode : Parse Stmt := do
  expectSymbol .openParen
  let condition ← expression
  expectSymbol .closeParen
  let whenTrue ← statement
  if ← eatKeyword .elseWord then
    let whenFalse ← statement
    return .branch condition whenTrue (some whenFalse)
  else return .branch condition whenTrue none

def loopNode : Parse Stmt := do
  expectSymbol .openParen
  let condition ← expression
  expectSymbol .closeParen
  let body ← statement
  return .loop condition body

def returnNode : Parse Stmt := do
  if (← atSymbol .semicolon) || (← atSymbol .closeBrace) || (← atEnd) then
    optionalSemicolon
    return .return none
  else
    let value ← expression
    optionalSemicolon
    return .return (some value)

def statementNode : Parse Stmt := do
  match ← currentKind with
  | .symbol .openBrace =>
      let block ← blockOf statement
      return .block block
  | .symbol .semicolon =>
      advance
      return .empty
  | .keyword .letWord =>
      advance
      bindingNode .letBinding
  | .keyword .constWord =>
      advance
      bindingNode .constBinding
  | .keyword .varWord =>
      advance
      bindingNode .varBinding
  | .keyword .ifWord =>
      advance
      branchNode statement
  | .keyword .whileWord =>
      advance
      loopNode statement
  | .keyword .returnWord =>
      advance
      returnNode
  | .keyword .throwWord =>
      advance
      let value ← expression
      optionalSemicolon
      return .throw value
  | _ =>
      let value ← expression
      optionalSemicolon
      return .expression value

/-- One statement, with the statements in it given by another parser. -/
def statementStep : Parse StmtId := do
  let start ← currentSpan
  let node ← statementNode statement
  addStmt node (← spanFrom start)

end

/-- A statement whose parts nest to a bounded depth. -/
def statementAt : Nat → Parse StmtId
  | 0 => failHere .expectedExpression
  | bound + 1 => statementStep (statementAt bound)

def block : Parse Block := do
  blockOf (statementAt (← stepBound))

end PluginSurface.Grammar
