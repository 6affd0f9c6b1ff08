import PluginSurface.Grammar.Typing

/-!
Parsing expressions. From loose to tight: assignments, conditionals, binary
operators by precedence, prefix operators, calls and accesses, and primary
expressions. Only expressions in brackets of any kind count as nested.
-/

namespace PluginSurface.Grammar

open Parse

def nestingLimit : Nat :=
  64

def castPrecedence : Nat :=
  7

/-- What kind of expression is called for. -/
inductive ExprGoal where
  | expression
  | assignment
  /-- Binary operators of at least a precedence. -/
  | binary (least : Nat)
  | unary

def nested {Result : Type} (parser : Parse Result) : Parse Result :=
  fun state =>
    if nestingLimit ≤ state.depth then
      failHere (fun _ => .nestingTooDeep nestingLimit) state
    else
      let (result, after) := parser { state with depth := state.depth + 1 }
      (result, { after with depth := state.depth })

/-- The operator of an assignment symbol; plain `=` has none. -/
def assignmentOperator? : TokenKind → Option (Option BinaryOperator)
  | .symbol .equal => some none
  | .symbol .plusEqual => some (some .add)
  | .symbol .minusEqual => some (some .subtract)
  | .symbol .starEqual => some (some .multiply)
  | .symbol .slashEqual => some (some .divide)
  | .symbol .percentEqual => some (some .remainder)
  | .symbol .ampersandEqual => some (some .bitAnd)
  | .symbol .pipeEqual => some (some .bitOr)
  | .symbol .caretEqual => some (some .bitXor)
  | _ => none

def binaryOperator? : TokenKind → Option BinaryOperator
  | .symbol .doublePipe => some .or
  | .symbol .doubleAmpersand => some .and
  | .symbol .pipe => some .bitOr
  | .symbol .caret => some .bitXor
  | .symbol .ampersand => some .bitAnd
  | .symbol .doubleEqual => some .equal
  | .symbol .bangEqual => some .notEqual
  | .symbol .tripleEqual => some .strictEqual
  | .symbol .bangDoubleEqual => some .strictNotEqual
  | .symbol .less => some .less
  | .symbol .greater => some .greater
  | .symbol .lessEqual => some .lessEqual
  | .symbol .greaterEqual => some .greaterEqual
  | .symbol .doubleLess => some .shiftLeft
  | .symbol .doubleGreater => some .shiftRight
  | .symbol .tripleGreater => some .shiftRightUnsigned
  | .symbol .plus => some .add
  | .symbol .minus => some .subtract
  | .symbol .star => some .multiply
  | .symbol .slash => some .divide
  | .symbol .percent => some .remainder
  | _ => none

def unaryOperator? : TokenKind → Option UnaryOperator
  | .symbol .minus => some .negate
  | .symbol .plus => some .plus
  | .symbol .bang => some .not
  | .symbol .tilde => some .bitNot
  | _ => none

/-- Variables, members and elements can be assigned to. -/
def isAssignable : Expr → Bool
  | .identifier _ | .member .. | .index .. => true
  | _ => false

section

variable (sub : ExprGoal → Parse ExprId)

/-- The arguments of a call after its opening parenthesis. -/
def arguments : Parse (List ExprId) :=
  listUntil .closeParen (sub .expression)

/-- An entry of an object literal. A key without a value stands for the
variable of that name. -/
def objectEntry : Parse (Name × ExprId) := do
  let key ←
    match ← currentKind with
    | .string content => takeName content
    | _ => expectPropertyName
  if ← eatSymbol .colon then
    let value ← sub .expression
    return (key, value)
  else
    let value ← addExpr (.identifier key.text) key.span
    return (key, value)

def primaryNode : Parse Expr := do
  match ← currentKind with
  | .integer value spelling =>
      advance
      return .literal (.integer value spelling)
  | .float value spelling =>
      advance
      return .literal (.float value spelling)
  | .string content =>
      advance
      return .literal (.string content)
  | .identifier name =>
      advance
      return .identifier name
  | .keyword .trueWord =>
      advance
      return .literal (.bool true)
  | .keyword .falseWord =>
      advance
      return .literal (.bool false)
  | .keyword .nullWord =>
      advance
      return .literal .null
  | .keyword .thisWord =>
      advance
      return .this
  | .keyword .newWord =>
      advance
      let type ← typeExpr
      let values ← if ← eatSymbol .openParen then arguments sub else pure []
      return .new type values
  | .keyword word =>
      if word.isContextual then
        advance
        return .identifier word.text
      else failHere .expectedExpression
  | .symbol .openParen =>
      advance
      let inner ← sub .expression
      expectSymbol .closeParen
      return .paren inner
  | .symbol .openBracket =>
      advance
      let elements ← listUntil .closeBracket (sub .expression)
      return .literal (.array elements)
  | .symbol .openBrace =>
      advance
      let entries ← listUntil .closeBrace (objectEntry sub)
      return .literal (.object entries)
  | _ => failHere .expectedExpression

def primary : Parse ExprId := do
  let start ← currentSpan
  let node ← primaryNode sub
  addExpr node (← spanFrom start)

/-- Calls, members and elements of an expression, as many as follow. -/
def accesses : Nat → ExprId → Parse ExprId
  | 0, expr => pure expr
  | bound + 1, expr => do
      match ← currentKind with
      | .symbol .openParen =>
          advance
          let values ← arguments sub
          let span ← spanFrom (← spanOf expr)
          accesses bound (← addExpr (.call expr [] values) span)
      | .symbol .less =>
          if ← looksLikeTypeArguments then
            advance
            let types ← separated typeExpr
            expectClosingAngle
            expectSymbol .openParen
            let values ← arguments sub
            let span ← spanFrom (← spanOf expr)
            accesses bound (← addExpr (.call expr types values) span)
          else return expr
      | .symbol .dot =>
          advance
          let property ← expectPropertyName
          let span := (← spanOf expr).merge property.span
          accesses bound (← addExpr (.member expr property) span)
      | .symbol .openBracket =>
          advance
          let index ← sub .expression
          expectSymbol .closeBracket
          let span ← spanFrom (← spanOf expr)
          accesses bound (← addExpr (.index expr index) span)
      | _ => return expr

def unary : Parse ExprId := do
  match unaryOperator? (← currentKind) with
  | some operator =>
      let start ← currentSpan
      advance
      let operand ← sub .unary
      addExpr (.unary operator operand) (start.merge (← spanOf operand))
  | none =>
      let expr ← primary sub
      accesses sub (← stepBound) expr

/-- Binary operators and casts that follow a left operand and bind at least
as tightly as required. -/
def binaryRest (least : Nat) : Nat → ExprId → Parse ExprId
  | 0, left => pure left
  | bound + 1, left => do
      if (← atKeyword .asWord) && least ≤ castPrecedence then
        advance
        let type ← typeExpr
        let span := (← spanOf left).merge type.span
        binaryRest least bound (← addExpr (.cast left type) span)
      else
        match binaryOperator? (← currentKind) with
        | none => return left
        | some operator =>
            if operator.precedence < least then return left
            else
              advance
              let right ← sub (.binary (operator.precedence + 1))
              let span := (← spanOf left).merge (← spanOf right)
              binaryRest least bound
                (← addExpr (.binary operator left right) span)

def binary (least : Nat) : Parse ExprId := do
  let left ← unary sub
  binaryRest sub least (← stepBound) left

def conditional : Parse ExprId := do
  let condition ← binary sub 1
  if ← eatSymbol .question then
    let whenTrue ← sub .assignment
    expectSymbol .colon
    let whenFalse ← sub .assignment
    let span := (← spanOf condition).merge (← spanOf whenFalse)
    addExpr (.conditional condition whenTrue whenFalse) span
  else return condition

def assignment : Parse ExprId := do
  let target ← conditional sub
  match assignmentOperator? (← currentKind) with
  | none => return target
  | some operator =>
      let located ← exprAt target
      if isAssignable located.node then
        advance
        let value ← sub .assignment
        let span := located.span.merge (← spanOf value)
        addExpr (.assign operator target value) span
      else failAt .invalidAssignmentTarget located.span

/-- One expression of the kind called for, with the expressions in it given by
another parser. -/
def goalStep : ExprGoal → Parse ExprId
  | .expression => nested (assignment sub)
  | .assignment => assignment sub
  | .binary least => binary sub least
  | .unary => unary sub

end

/-- An expression of the kind called for, whose parts nest to a bounded depth.
Every part starts further on than the whole, so the number of tokens left is
bound enough. -/
def goalAt : Nat → ExprGoal → Parse ExprId
  | 0, _ => failHere .expectedExpression
  | bound + 1, goal => goalStep (goalAt bound) goal

def expression : Parse ExprId := do
  goalAt (← stepBound) .expression

/-- The arguments of a decorator after its opening parenthesis. -/
def decoratorArguments : Parse (List ExprId) :=
  listUntil .closeParen expression

end PluginSurface.Grammar
