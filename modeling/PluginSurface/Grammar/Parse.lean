import PluginSurface.Syntax.Fault
import PluginSurface.Syntax.Program

/-!
The parsing state and its elementary steps. A parser works on the tokens that
are left; it either gives a result or fails, and in both cases leaves a state,
because faults that were reported and nodes that were stored stay. Every
failure reports a fault.
-/

namespace PluginSurface.Grammar

/-- What is left to parse and what has been collected. -/
structure State where
  source : SourceText
  /-- The tokens that are left. -/
  rest : List Token
  /-- The token that stands after the last one. -/
  finish : Token
  /-- Where the last consumed token stands. -/
  previous : Span
  diagnostics : Diagnostics
  arena : Arena
  /-- How deep the expression being read is nested in others. -/
  depth : Nat

def Parse (Result : Type) :=
  State → Option Result × State

namespace Parse

variable {Result Next : Type}

instance : Monad Parse where
  pure result state := (some result, state)
  bind first next state :=
    match first state with
    | (some result, state) => next result state
    | (none, state) => (none, state)

def inspect (view : State → Result) : Parse Result :=
  fun state => (some (view state), state)

/-- Gives a result in place of a failure. -/
def attempt (parser : Parse Result) : Parse (Option Result) :=
  fun state =>
    match parser state with
    | (result, state) => (some result, state)

end Parse

namespace State

def current (state : State) : Token :=
  state.rest.head?.getD state.finish

def lookAhead (state : State) (distance : Nat) : TokenKind :=
  (state.rest[distance]?.getD state.finish).kind

def advance (state : State) : State :=
  match state.rest with
  | [] => state
  | token :: rest => { state with rest := rest, previous := token.span }

def report (state : State) (fault : SyntaxFault) (span : Span) : State :=
  { state with
    diagnostics :=
      state.diagnostics.push (fault.diagnostic state.source span) }

end State

open Parse

variable {Result : Type}

def currentKind : Parse TokenKind :=
  inspect fun state => state.current.kind

def currentSpan : Parse Span :=
  inspect fun state => state.current.span

def previousSpan : Parse Span :=
  inspect State.previous

def atEnd : Parse Bool :=
  inspect fun state => state.current.kind.isEndOfFile

def atSymbol (mark : Symbol) : Parse Bool :=
  inspect fun state => state.current.kind.isSymbol mark

def atKeyword (word : Keyword) : Parse Bool :=
  inspect fun state => state.current.kind.isKeyword word

/-- Whether there is room for no further fault. -/
def isFull : Parse Bool :=
  inspect fun state => state.diagnostics.isFull

/-- A bound for the number of steps that consume a token. -/
def stepBound : Parse Nat :=
  inspect fun state => state.rest.length + 1

def advance : Parse Unit :=
  fun state => (some (), state.advance)

def report (fault : SyntaxFault) (span : Span) : Parse Unit :=
  fun state => (some (), state.report fault span)

def failAt (fault : SyntaxFault) (span : Span) : Parse Result :=
  fun state => (none, state.report fault span)

/-- Reports a fault of the token at the front and fails. -/
def failHere (fault : TokenKind → SyntaxFault) : Parse Result :=
  fun state =>
    (none, state.report (fault state.current.kind) state.current.span)

/-- Consumes a symbol if it stands at the front. -/
def eatSymbol (mark : Symbol) : Parse Bool := do
  if ← atSymbol mark then
    advance
    return true
  else return false

/-- Consumes a reserved word if it stands at the front. -/
def eatKeyword (word : Keyword) : Parse Bool := do
  if ← atKeyword word then
    advance
    return true
  else return false

/-- Consumes a name with a given spelling if it stands at the front. -/
def eatIdentifier (name : String) : Parse Bool := do
  if (← currentKind).isIdentifier name then
    advance
    return true
  else return false

def expectSymbol (mark : Symbol) : Parse Unit := do
  if ← atSymbol mark then advance
  else failHere (.expectedToken (.symbol mark))

def expectKeyword (word : Keyword) : Parse Unit := do
  if ← atKeyword word then advance
  else failHere (.expectedToken (.keyword word))

/-- Consumes the token at the front as a name with a given text. -/
def takeName (text : String) : Parse Name := do
  let span ← currentSpan
  advance
  return ⟨text, span⟩

/-- A name, which may be a contextual keyword. -/
def expectIdentifier : Parse Name := do
  match ← currentKind with
  | .identifier name => takeName name
  | .keyword word =>
      if word.isContextual then takeName word.text
      else failHere .expectedIdentifier
  | _ => failHere .expectedIdentifier

/-- A name of a property, which may be any reserved word. -/
def expectPropertyName : Parse Name := do
  match ← currentKind with
  | .identifier name => takeName name
  | .keyword word => takeName word.text
  | _ => failHere .expectedIdentifier

def expectString : Parse String := do
  match ← currentKind with
  | .string content =>
      advance
      return content
  | _ => failHere .expectedString

/-- What is left of a symbol when a `>` is taken off its front. -/
def afterAngle? : Symbol → Option Symbol
  | .doubleGreater => some .greater
  | .tripleGreater => some .doubleGreater
  | .greaterEqual => some .equal
  | _ => none

/-- Takes the `>` off the symbol at the front; what is left of it stays there
as a symbol of its own, one column further on. -/
def splitAngle (left : Symbol) : Parse Unit :=
  fun state =>
    match state.rest with
    | [] => (some (), state)
    | token :: rest =>
        let start := token.span.start
        let span : Span := ⟨⟨start.line, start.column + 1⟩, token.span.stop⟩
        (some (), { state with rest := ⟨.symbol left, span⟩ :: rest })

/-- The `>` that closes type arguments, which may be the first character of a
longer symbol. -/
def expectClosingAngle : Parse Unit := do
  match ← currentKind with
  | .symbol mark =>
      match afterAngle? mark with
      | some left => splitAngle left
      | none => expectSymbol .greater
  | _ => expectSymbol .greater

/-- Items divided by commas up to a closing symbol, which is left in place. A
comma may stand after the last item. -/
def itemsUntil (closing : Symbol) (item : Parse Result) :
    Nat → Parse (List Result)
  | 0 => failHere (.expectedToken (.symbol closing))
  | bound + 1 => do
      if (← atSymbol closing) || (← atEnd) then return []
      let first ← item
      if ← eatSymbol .comma then
        let rest ← itemsUntil closing item bound
        return first :: rest
      else return [first]

/-- Items divided by commas, followed by a closing symbol. -/
def listUntil (closing : Symbol) (item : Parse Result) :
    Parse (List Result) := do
  let items ← itemsUntil closing item (← stepBound)
  expectSymbol closing
  return items

def separatedItems (item : Parse Result) : Nat → Parse (List Result)
  | 0 => failHere .expectedIdentifier
  | bound + 1 => do
      let first ← item
      if ← eatSymbol .comma then
        let rest ← separatedItems item bound
        return first :: rest
      else return [first]

def separated (item : Parse Result) : Parse (List Result) := do
  separatedItems item (← stepBound)

def addExpr (node : Expr) (span : Span) : Parse ExprId :=
  fun state =>
    let (id, arena) := state.arena.addExpr node span
    (some id, { state with arena := arena })

def addStmt (node : Stmt) (span : Span) : Parse StmtId :=
  fun state =>
    let (id, arena) := state.arena.addStmt node span
    (some id, { state with arena := arena })

def exprAt (id : ExprId) : Parse (Located Expr) :=
  inspect fun state => state.arena.expr id

/-- The span of the expression stored under a number. -/
def spanOf (id : ExprId) : Parse Span :=
  inspect fun state => (state.arena.expr id).span

/-- The span from a start up to the last consumed token. -/
def spanFrom (start : Span) : Parse Span := do
  return start.merge (← previousSpan)

end PluginSurface.Grammar
