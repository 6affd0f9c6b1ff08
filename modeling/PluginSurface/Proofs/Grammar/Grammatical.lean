import PluginSurface.Proofs.Syntax.Kinds

/-!
# Grammatical programs

What the grammar allows, said of trees. Operands bind at least as tightly as
their places require, an `else` belongs to the nearest `if` that has none, and
no comparison reads like the type arguments of a call.
-/

namespace PluginSurface

open Grammar

/-! ## Tokens -/

namespace TokenKind

/-- A number that a scanner makes of some text. -/
def IsNumber (kind : TokenKind) : Prop :=
  ∃ chars, Scan.startsNumber chars = true ∧
    ∀ start, Scan.scanNumber start chars =
      ⟨kind.text.toList.length, some kind, []⟩

/-- What holds of the tokens of a text without faults. -/
def IsLexed : TokenKind → Prop
  | identifier name => Scan.isWord name = true ∧ Keyword.ofText? name = none
  | integer value spelling => IsNumber (integer value spelling)
  | float value spelling => IsNumber (float value spelling)
  | _ => True

end TokenKind

namespace Grammar

theorem angleChange?_ofWord {word : String}
    (neutral : (angleChange? (.ofWord word)).isSome = true) :
    angleChange? (.ofWord word) = some 0 := by
  unfold TokenKind.ofWord at neutral ⊢
  split at neutral
  · next reserved _ => cases reserved <;> simp_all [angleChange?]
  · rfl

end Grammar

/-! ## Types -/

namespace TypeShape

mutual

def Grammatical : TypeShape → Prop
  | named segments arguments =>
      segments ≠ [] ∧ (∀ segment ∈ segments, isTypeName segment = true) ∧
        AllGrammatical arguments
  | array element => element.Grammatical
  | nullable inner => inner.Grammatical

def AllGrammatical : List TypeShape → Prop
  | [] => True
  | type :: rest => type.Grammatical ∧ AllGrammatical rest

end

mutual

/-- Whether all tokens of a type may stand between the angles of a call. -/
def isBare : TypeShape → Bool
  | named segments arguments =>
      segments.all (fun segment => (angleChange? (.ofWord segment)).isSome) &&
        areBare arguments
  | array element => !element.isNullable && element.isBare
  | nullable inner => inner.isBare

def areBare : List TypeShape → Bool
  | [] => true
  | type :: rest => type.isBare && areBare rest

end

end TypeShape

/-- Tokens that make a type before them nullable. -/
def StartsNullable : List TokenKind → Prop
  | .symbol .pipe :: .keyword .nullWord :: _ => True
  | _ => False

/-! ## Angles -/

/-- Whether no reader of type arguments goes past a token, which opens no
call either. -/
def TokenKind.isWall (kind : TokenKind) : Bool :=
  (angleChange? kind).isNone && !kind.isSymbol .openParen

namespace Grammar

/-- Whether the open angles close right before an opening parenthesis. -/
def closes (depth : Int) : List TokenKind → Bool
  | [] => false
  | kind :: rest =>
      match angleChange? kind with
      | none => false
      | some change =>
          if depth + change < 0 then false
          else if depth + change = 0 then
            rest.head?.any fun next => next.isSymbol .openParen
          else closes (depth + change) rest

theorem closesBeforeCall_eq (depth : Int) (tokens : List Token) :
    closesBeforeCall depth tokens = closes depth (tokens.map Token.kind) := by
  induction tokens generalizing depth with
  | nil => rfl
  | cons token rest inductionHypothesis =>
      simp only [closesBeforeCall, closes, List.map_cons,
        inductionHypothesis]
      cases rest <;> rfl

/-- Tokens that lead a reader into type arguments only where others do. -/
structure Milder (printed original : List TokenKind) : Prop where
  paren : printed.head? = some (.symbol .openParen) →
    original.head? = some (.symbol .openParen)
  angles : ∀ depth : Int, 0 < depth → closes depth printed = true →
    closes depth original = true

/-- Tokens that lead no reader into type arguments. -/
structure Inert (tokens : List TokenKind) : Prop where
  paren : tokens.head? ≠ some (.symbol .openParen)
  angles : ∀ depth : Int, 0 < depth → closes depth tokens = false

/-- Tokens that continue an expression with a call or an access. -/
def StartsAccess : List TokenKind → Prop
  | .symbol .openParen :: _ | .symbol .dot :: _ | .symbol .openBracket :: _ =>
      True
  | .symbol .less :: rest => closes 1 rest = true
  | _ => False

/-- How tightly a token binds what stands on both sides of it. -/
def infixPrecedence? (kind : TokenKind) : Option Nat :=
  if kind.isKeyword .asWord then some castPrecedence
  else (binaryOperator? kind).map BinaryOperator.precedence

/-- Tokens that operators of at least a precedence do not go on with. -/
def Stopped (least : Nat) (after : List TokenKind) : Prop :=
  ∀ kind ∈ after.head?, ∀ precedence ∈ infixPrecedence? kind,
    precedence < least

end Grammar

/-! ## Expressions -/

namespace ExprTree

def unaryTightness : Nat :=
  11

def postfixTightness : Nat :=
  12

/-- How tightly the loosest operator binds that stands outside of all brackets
and is not to the right of another one. -/
def loosest : ExprTree → Nat
  | assign .. | conditional .. => 0
  | binary operator left _ => min operator.precedence left.loosest
  | cast operand _ => min castPrecedence operand.loosest
  | unary .. => unaryTightness
  | _ => postfixTightness

/-- Whether an operator of a precedence may follow as the left operand ends. -/
def admits (precedence : Nat) : ExprTree → Prop
  | binary operator .. => precedence ≤ operator.precedence
  | _ => True

/-- The type that an expression ends in. -/
def endType? : ExprTree → Option TypeShape
  | cast _ type => some type
  | binary _ _ right => right.endType?
  | unary _ operand => operand.endType?
  | assign _ _ value => value.endType?
  | conditional _ _ whenFalse => whenFalse.endType?
  | _ => none

def isAssignable : ExprTree → Bool
  | identifier _ | member .. | index .. => true
  | _ => false

def isIdentifier : ExprTree → Bool
  | identifier _ => true
  | _ => false

mutual

/-- How deep brackets are nested. An entry of an object that stands for a
variable has no expression of its own. -/
def nesting : ExprTree → Nat
  | array elements => nestingOfAll elements
  | object entries => nestingOfEntries entries
  | new _ arguments => nestingOfAll arguments
  | call callee _ arguments => max callee.nesting (nestingOfAll arguments)
  | member target _ => target.nesting
  | index target position => max target.nesting (position.nesting + 1)
  | binary _ left right => max left.nesting right.nesting
  | unary _ operand => operand.nesting
  | assign _ target value => max target.nesting value.nesting
  | conditional condition whenTrue whenFalse =>
      max condition.nesting (max whenTrue.nesting whenFalse.nesting)
  | cast operand _ => operand.nesting
  | paren inner => inner.nesting + 1
  | _ => 0

def nestingOfAll : List ExprTree → Nat
  | [] => 0
  | tree :: rest => max (tree.nesting + 1) (nestingOfAll rest)

def nestingOfEntries : List (String × ExprTree) → Nat
  | [] => 0
  | (_, value) :: rest =>
      max (if value.isIdentifier then 0 else value.nesting + 1)
        (nestingOfEntries rest)

end

mutual

def Grammatical : ExprTree → Prop
  | integer value spelling => TokenKind.IsLexed (.integer value spelling)
  | float value spelling => TokenKind.IsLexed (.float value spelling)
  | array elements => AllGrammatical elements
  | object entries => EntriesGrammatical entries
  | new type arguments => type.Grammatical ∧ AllGrammatical arguments
  | call callee types arguments =>
      postfixTightness ≤ callee.loosest ∧ callee.Grammatical ∧
        TypeShape.AllGrammatical types ∧ TypeShape.areBare types = true ∧
        AllGrammatical arguments
  | member target property =>
      postfixTightness ≤ target.loosest ∧ target.Grammatical ∧
        Scan.isWord property = true
  | index target position =>
      postfixTightness ≤ target.loosest ∧ target.Grammatical ∧
        position.Grammatical
  | binary operator left right =>
      0 < left.loosest ∧ left.admits operator.precedence ∧
        operator.precedence < right.loosest ∧ left.Grammatical ∧
        right.Grammatical ∧
        (operator = .bitOr →
          right.kinds.head? = some (.keyword .nullWord) →
            ∀ type ∈ left.endType?, type.isNullable = true)
  | unary _ operand =>
      unaryTightness ≤ operand.loosest ∧ operand.Grammatical
  | assign operator target value =>
      assignmentOperator? (.symbol (assignmentSymbol operator)) =
          some operator ∧
        target.isAssignable = true ∧ target.Grammatical ∧ value.Grammatical
  | conditional condition whenTrue whenFalse =>
      0 < condition.loosest ∧ condition.Grammatical ∧
        whenTrue.Grammatical ∧ whenFalse.Grammatical
  | cast operand type =>
      0 < operand.loosest ∧ operand.admits castPrecedence ∧
        operand.Grammatical ∧ type.Grammatical
  | paren inner => inner.Grammatical
  | _ => True

def AllGrammatical : List ExprTree → Prop
  | [] => True
  | tree :: rest => tree.Grammatical ∧ AllGrammatical rest

def EntriesGrammatical : List (String × ExprTree) → Prop
  | [] => True
  | (_, value) :: rest => value.Grammatical ∧ EntriesGrammatical rest

end

mutual

/-- In front of some tokens no comparison reads like type arguments. -/
def Unmistaken : ExprTree → List TokenKind → Prop
  | array elements, after =>
      AllUnmistaken elements (.symbol .closeBracket :: after)
  | object entries, after =>
      EntriesUnmistaken entries (.symbol .closeBrace :: after)
  | new _ arguments, after =>
      AllUnmistaken arguments (.symbol .closeParen :: after)
  | call callee types arguments, after =>
      callee.Unmistaken
          (TypeShape.angled types ++
            .symbol .openParen :: joinedKinds (kindsOfAll arguments) ++
            .symbol .closeParen :: after) ∧
        AllUnmistaken arguments (.symbol .closeParen :: after)
  | member target property, after =>
      target.Unmistaken (.symbol .dot :: .ofWord property :: after)
  | index target position, after =>
      target.Unmistaken
          (.symbol .openBracket :: position.kinds ++
            .symbol .closeBracket :: after) ∧
        position.Unmistaken (.symbol .closeBracket :: after)
  | binary operator left right, after =>
      left.Unmistaken (.symbol operator.symbol :: right.kinds ++ after) ∧
        right.Unmistaken after ∧
        (operator = .less → left.endType? = none →
          closes 1 (right.kinds ++ after) = false)
  | unary _ operand, after =>
      operand.Unmistaken
        (if operand.isUnary then .symbol .closeParen :: after else after)
  | assign operator target value, after =>
      target.Unmistaken
          (.symbol (assignmentSymbol operator) :: value.kinds ++ after) ∧
        value.Unmistaken after
  | conditional condition whenTrue whenFalse, after =>
      condition.Unmistaken
          (.symbol .question :: whenTrue.kinds ++
            .symbol .colon :: whenFalse.kinds ++ after) ∧
        whenTrue.Unmistaken (.symbol .colon :: whenFalse.kinds ++ after) ∧
        whenFalse.Unmistaken after
  | cast operand type, after =>
      operand.Unmistaken (.keyword .asWord :: type.kinds ++ after)
  | paren inner, after => inner.Unmistaken (.symbol .closeParen :: after)
  | _, _ => True

def AllUnmistaken : List ExprTree → List TokenKind → Prop
  | [], _ => True
  | tree :: rest, after =>
      tree.Unmistaken (followed (kindsOfAll rest) after) ∧
        AllUnmistaken rest after

def EntriesUnmistaken : List (String × ExprTree) → List TokenKind → Prop
  | [], _ => True
  | (_, value) :: rest, after =>
      value.Unmistaken (followed (kindsOfEntries rest) after) ∧
        EntriesUnmistaken rest after

end

/-- An expression in brackets at a depth, or one that stands in no other
one. -/
structure Enclosed (depth : Nat) (tree : ExprTree) : Prop where
  grammatical : tree.Grammatical
  shallow : tree.nesting + depth < nestingLimit
  unmistaken : ∀ after, Inert after → tree.Unmistaken after

abbrev Standalone (tree : ExprTree) : Prop :=
  tree.Enclosed 0

/-- Expressions between parentheses. -/
structure AllEnclosed (depth : Nat) (trees : List ExprTree) : Prop where
  grammatical : AllGrammatical trees
  shallow : nestingOfAll trees + depth ≤ nestingLimit
  unmistaken : ∀ after, AllUnmistaken trees (.symbol .closeParen :: after)

end ExprTree

/-! ## Statements -/

/-- Tokens that make a statement something else than an expression. -/
def startsOtherStatement : TokenKind → Bool
  | .symbol .openBrace | .symbol .semicolon
  | .keyword .letWord | .keyword .constWord | .keyword .varWord
  | .keyword .ifWord | .keyword .whileWord | .keyword .returnWord
  | .keyword .throwWord => true
  | _ => false

namespace StmtTree

/-- Whether an `else` behind a statement would belong to it. -/
def isOpenEnded : StmtTree → Bool
  | branch _ _ none => true
  | branch _ _ (some whenFalse) => whenFalse.isOpenEnded
  | loop _ body => body.isOpenEnded
  | _ => false

mutual

def Grammatical : StmtTree → Prop
  | block statements => AllGrammatical statements
  | expression value =>
      value.Standalone ∧
        ∀ kind ∈ value.kinds.head?, startsOtherStatement kind = false
  | binding _ name type value =>
      isName name = true ∧ (∀ shape ∈ type, shape.Grammatical) ∧
        ∀ tree ∈ value, tree.Standalone
  | branch condition whenTrue none =>
      condition.Standalone ∧ whenTrue.Grammatical
  | branch condition whenTrue (some whenFalse) =>
      condition.Standalone ∧ whenTrue.Grammatical ∧
        whenTrue.isOpenEnded = false ∧ whenFalse.Grammatical
  | loop condition body => condition.Standalone ∧ body.Grammatical
  | .return value => ∀ tree ∈ value, tree.Standalone
  | throw value => value.Standalone
  | empty => True

def AllGrammatical : List StmtTree → Prop
  | [] => True
  | tree :: rest => tree.Grammatical ∧ AllGrammatical rest

end

end StmtTree

/-! ## Declarations -/

structure DecoratorTree.Grammatical (tree : DecoratorTree) : Prop where
  name : Scan.isWord tree.name = true
  arguments : ExprTree.AllEnclosed 0 tree.arguments

structure SlotTree.Grammatical (tree : SlotTree) : Prop where
  name : Scan.isWord tree.name = true
  type : tree.type.Grammatical
  initializer : ∀ value ∈ tree.initializer, value.Standalone

/-- The contents of string literals, if all expressions are such. -/
def stringContents? : List ExprTree → Option (List String)
  | [] => some []
  | .string content :: rest => (stringContents? rest).map (content :: ·)
  | _ => none

/-- The host name that decorators give, and none if they give a malformed
one. -/
def externalOf? (decorators : List DecoratorTree) :
    Option (Option ExternalName) :=
  match decorators.find? fun decorator => decorator.name == "external" with
  | none => some none
  | some decorator =>
      match stringContents? decorator.arguments with
      | some [name] => some (some ⟨none, name⟩)
      | some [moduleName, name] => some (some ⟨some moduleName, name⟩)
      | _ => none

namespace FunctionTree

/-- A function or a method. -/
structure Grammatical (tree : FunctionTree) : Prop where
  name : Scan.isWord tree.name = true
  decorators : ∀ decorator ∈ tree.decorators, decorator.Grammatical
  params : ∀ param ∈ tree.params, param.Grammatical ∧ isName param.name = true
  returnType : ∀ type ∈ tree.returnType, type.Grammatical
  body : ∀ statements ∈ tree.body, StmtTree.AllGrammatical statements

/-- A function that stands in no class. -/
structure TopLevel (tree : FunctionTree) : Prop where
  grammatical : tree.Grammatical
  named : isName tree.name = true
  external : externalOf? tree.decorators = some tree.external
  declared : tree.isDeclared = true → tree.body = none

/-- A function that stands in a class. -/
structure InClass (tree : FunctionTree) : Prop where
  grammatical : tree.Grammatical
  external : tree.external = none
  plain : tree.isExported = false ∧ tree.isDeclared = false

end FunctionTree

namespace ItemTree

def Grammatical : ItemTree → Prop
  | function tree => tree.TopLevel
  | .class name decorators _ base fields methods =>
      isName name = true ∧
        (∀ decorator ∈ decorators, decorator.Grammatical) ∧
        (∀ type ∈ base, type.Grammatical) ∧
        (∀ field ∈ fields, field.Grammatical) ∧
        ∀ tree ∈ methods, tree.InClass
  | exportList members _ =>
      ∀ member ∈ members, isName member.1 = true ∧
        ∀ newName ∈ member.2, isName newName = true
  | importList members namespaceName _ =>
      (∀ member ∈ members, isName member.1 = true ∧ isName member.2 = true) ∧
        (∀ name ∈ namespaceName, isName name = true ∧ members = [])
  | .variable _ name type value _ decorators =>
      isName name = true ∧ (∀ shape ∈ type, shape.Grammatical) ∧
        (∀ tree ∈ value, tree.Standalone) ∧
        ∀ decorator ∈ decorators, decorator.Grammatical

end ItemTree

def ProgramTree.Grammatical (tree : ProgramTree) : Prop :=
  ∀ item ∈ tree.items, item.Grammatical

end PluginSurface
