import PluginSurface.Grammar.Declaration
import PluginSurface.Syntax.Print
import PluginSurface.Syntax.Scan

/-!
# Programs as tokens

The tokens that the text of a program consists of. They are given for trees, so
that what a scanner makes of a text and what a parser makes of tokens can be
told apart.
-/

namespace PluginSurface

namespace Grammar

theorem isSymbol_iff {kind : TokenKind} {mark : Symbol} :
    kind.isSymbol mark = true ↔ kind = .symbol mark := by
  cases kind <;> simp [TokenKind.isSymbol]

theorem isKeyword_iff {kind : TokenKind} {word : Keyword} :
    kind.isKeyword word = true ↔ kind = .keyword word := by
  cases kind <;> simp [TokenKind.isKeyword]

theorem isEndOfFile_iff {kind : TokenKind} :
    kind.isEndOfFile = true ↔ kind = .endOfFile := by
  cases kind <;> simp [TokenKind.isEndOfFile]

end Grammar

/-! ## Words -/

/-- Whether a text makes up one word. -/
def Scan.isWord (text : String) : Bool :=
  match text.toList with
  | [] => false
  | first :: rest => Scan.isWordStart first && rest.all Scan.isWordPart

/-- Whether a word may be the name of something. -/
def isName (text : String) : Bool :=
  Scan.isWord text && (Keyword.ofText? text).all Keyword.isContextual

/-- Whether a word may be part of the name of a type. -/
def isTypeName (text : String) : Bool :=
  text == Keyword.nullWord.text || isName text

theorem isWord_of_isTypeName {text : String} (named : isTypeName text = true) :
    Scan.isWord text = true := by
  rcases Bool.or_eq_true_iff.mp named with isNull | isName
  · rw [beq_iff_eq.mp isNull]
    decide
  · exact (Bool.and_eq_true_iff.mp isName).1

def TokenKind.comma : TokenKind :=
  .symbol .comma

/-- Parts with commas between them. -/
def joinedKinds : List (List TokenKind) → List TokenKind
  | [] => []
  | [part] => part
  | part :: next :: rest => part ++ .comma :: joinedKinds (next :: rest)

/-- What follows a part when other parts are still to come. -/
def followed (parts : List (List TokenKind)) (after : List TokenKind) :
    List TokenKind :=
  match parts with
  | [] => after
  | parts => .comma :: joinedKinds parts ++ after

theorem joinedKinds_cons_append (part : List TokenKind)
    (parts : List (List TokenKind)) (after : List TokenKind) :
    joinedKinds (part :: parts) ++ after = part ++ followed parts after := by
  cases parts with
  | nil => rfl
  | cons next rest => simp [joinedKinds, followed]

/-! ## Operators -/

def BinaryOperator.symbol : BinaryOperator → Symbol
  | or => .doublePipe
  | and => .doubleAmpersand
  | bitOr => .pipe
  | bitXor => .caret
  | bitAnd => .ampersand
  | equal => .doubleEqual
  | notEqual => .bangEqual
  | strictEqual => .tripleEqual
  | strictNotEqual => .bangDoubleEqual
  | less => .less
  | greater => .greater
  | lessEqual => .lessEqual
  | greaterEqual => .greaterEqual
  | shiftLeft => .doubleLess
  | shiftRight => .doubleGreater
  | shiftRightUnsigned => .tripleGreater
  | add => .plus
  | subtract => .minus
  | multiply => .star
  | divide => .slash
  | remainder => .percent

def UnaryOperator.symbol : UnaryOperator → Symbol
  | negate => .minus
  | plus => .plus
  | not => .bang
  | bitNot => .tilde

/-- The symbol of an assignment. Only eight operators have one of their own. -/
def assignmentSymbol : Option BinaryOperator → Symbol
  | some .add => .plusEqual
  | some .subtract => .minusEqual
  | some .multiply => .starEqual
  | some .divide => .slashEqual
  | some .remainder => .percentEqual
  | some .bitAnd => .ampersandEqual
  | some .bitOr => .pipeEqual
  | some .bitXor => .caretEqual
  | _ => .equal

@[simp]
theorem Grammar.binaryOperator?_symbol (operator : BinaryOperator) :
    binaryOperator? (.symbol operator.symbol) = some operator := by
  cases operator <;> rfl

@[simp]
theorem Grammar.unaryOperator?_symbol (operator : UnaryOperator) :
    unaryOperator? (.symbol operator.symbol) = some operator := by
  cases operator <;> rfl

/-! ## Types -/

namespace TypeShape

/-- Closing angles that stand together, as a scanner divides them. -/
def angles : Nat → List TokenKind
  | 0 => []
  | 1 => [.symbol .greater]
  | 2 => [.symbol .doubleGreater]
  | count + 3 => .symbol .tripleGreater :: angles count

/-- Words with dots between them. -/
def dotted : List String → List TokenKind
  | [] => []
  | [segment] => [.ofWord segment]
  | segment :: next :: rest =>
      .ofWord segment :: .symbol .dot :: dotted (next :: rest)

mutual

/-- The tokens of a type with closing angles behind it. -/
def kindsBefore : TypeShape → Nat → List TokenKind
  | named segments [], closing => dotted segments ++ angles closing
  | named segments arguments, closing =>
      dotted segments ++ .symbol .less :: argumentKinds arguments closing
  | array element, closing =>
      (if element.isNullable then
        .symbol .openParen :: element.kindsBefore 0 ++ [.symbol .closeParen]
      else element.kindsBefore 0) ++
        .symbol .openBracket :: .symbol .closeBracket :: angles closing
  | nullable inner, closing =>
      inner.kindsBefore 0 ++
        .symbol .pipe :: .keyword .nullWord :: angles closing

/-- The tokens of type arguments behind their opening angle, with closing
angles behind the one that ends them. -/
def argumentKinds : List TypeShape → Nat → List TokenKind
  | [], closing => angles (closing + 1)
  | [last], closing => last.kindsBefore (closing + 1)
  | type :: rest, closing =>
      type.kindsBefore 0 ++ .comma :: argumentKinds rest closing

end

def kinds (type : TypeShape) : List TokenKind :=
  type.kindsBefore 0

/-- The tokens of type arguments with their angles, if there are any. -/
def angled : List TypeShape → List TokenKind
  | [] => []
  | types => .symbol .less :: argumentKinds types 0

end TypeShape

/-- The tokens of a type that may stand behind a colon. -/
def typedKinds : Option TypeShape → List TokenKind
  | some type => .symbol .colon :: type.kinds
  | none => []

/-! ## Expressions -/

namespace ExprTree

mutual

def kinds : ExprTree → List TokenKind
  | null => [.keyword .nullWord]
  | bool true => [.keyword .trueWord]
  | bool false => [.keyword .falseWord]
  | integer value spelling => [.integer value spelling]
  | float value spelling => [.float value spelling]
  | string content => [.string content]
  | array elements =>
      .symbol .openBracket :: joinedKinds (kindsOfAll elements) ++
        [.symbol .closeBracket]
  | object entries =>
      .symbol .openBrace :: joinedKinds (kindsOfEntries entries) ++
        [.symbol .closeBrace]
  | identifier name => [.ofWord name]
  | this => [.keyword .thisWord]
  | new type arguments =>
      .keyword .newWord :: type.kinds ++
        .symbol .openParen :: joinedKinds (kindsOfAll arguments) ++
        [.symbol .closeParen]
  | call callee types arguments =>
      callee.kinds ++ TypeShape.angled types ++
        .symbol .openParen :: joinedKinds (kindsOfAll arguments) ++
        [.symbol .closeParen]
  | member target property =>
      target.kinds ++ [.symbol .dot, .ofWord property]
  | index target position =>
      target.kinds ++ .symbol .openBracket :: position.kinds ++
        [.symbol .closeBracket]
  | binary operator left right =>
      left.kinds ++ .symbol operator.symbol :: right.kinds
  | unary operator operand =>
      .symbol operator.symbol ::
        if operand.isUnary then
          .symbol .openParen :: operand.kinds ++ [.symbol .closeParen]
        else operand.kinds
  | assign operator target value =>
      target.kinds ++ .symbol (assignmentSymbol operator) :: value.kinds
  | conditional condition whenTrue whenFalse =>
      condition.kinds ++ .symbol .question :: whenTrue.kinds ++
        .symbol .colon :: whenFalse.kinds
  | cast operand type => operand.kinds ++ .keyword .asWord :: type.kinds
  | paren inner =>
      .symbol .openParen :: inner.kinds ++ [.symbol .closeParen]

def kindsOfAll : List ExprTree → List (List TokenKind)
  | [] => []
  | tree :: rest => tree.kinds :: kindsOfAll rest

def kindsOfEntries : List (String × ExprTree) → List (List TokenKind)
  | [] => []
  | (key, value) :: rest =>
      (.ofWord key :: .symbol .colon :: value.kinds) :: kindsOfEntries rest

end

theorem kinds_ne_nil (tree : ExprTree) : tree.kinds ≠ [] := by
  cases tree with
  | bool value => cases value <;> simp [kinds]
  | _ => simp [kinds]

theorem head?_kinds_append (tree : ExprTree) (rest : List TokenKind) :
    (tree.kinds ++ rest).head? = tree.kinds.head? := by
  rw [List.head?_append, List.head?_eq_some_head tree.kinds_ne_nil]
  rfl

/-- The tokens of an initial value behind its equals sign. -/
def initializedKinds : Option ExprTree → List TokenKind
  | some value => .symbol .equal :: value.kinds
  | none => []

end ExprTree

/-! ## Statements -/

def BindingKind.keyword : BindingKind → Keyword
  | letBinding => .letWord
  | constBinding => .constWord
  | varBinding => .varWord

def bindingKinds (kind : BindingKind) (name : String) (type : Option TypeShape)
    (value : Option ExprTree) : List TokenKind :=
  .keyword kind.keyword :: .ofWord name :: typedKinds type ++
    ExprTree.initializedKinds value ++ [.symbol .semicolon]

namespace StmtTree

mutual

def kinds : StmtTree → List TokenKind
  | block statements =>
      .symbol .openBrace :: kindsOfAll statements ++ [.symbol .closeBrace]
  | expression value => value.kinds ++ [.symbol .semicolon]
  | binding kind name type value => bindingKinds kind name type value
  | branch condition whenTrue none =>
      .keyword .ifWord :: .symbol .openParen :: condition.kinds ++
        .symbol .closeParen :: whenTrue.kinds
  | branch condition whenTrue (some whenFalse) =>
      .keyword .ifWord :: .symbol .openParen :: condition.kinds ++
        .symbol .closeParen :: whenTrue.kinds ++
        .keyword .elseWord :: whenFalse.kinds
  | loop condition body =>
      .keyword .whileWord :: .symbol .openParen :: condition.kinds ++
        .symbol .closeParen :: body.kinds
  | .return none => [.keyword .returnWord, .symbol .semicolon]
  | .return (some value) =>
      .keyword .returnWord :: value.kinds ++ [.symbol .semicolon]
  | throw value => .keyword .throwWord :: value.kinds ++ [.symbol .semicolon]
  | empty => [.symbol .semicolon]

def kindsOfAll : List StmtTree → List TokenKind
  | [] => []
  | tree :: rest => tree.kinds ++ kindsOfAll rest

end

end StmtTree

/-! ## Declarations -/

def keywordIf (isThere : Bool) (word : Keyword) : List TokenKind :=
  if isThere then [.keyword word] else []

namespace DecoratorTree

def kinds (tree : DecoratorTree) : List TokenKind :=
  .symbol .atSign :: .ofWord tree.name ::
    match tree.arguments with
    | [] => []
    | arguments =>
        .symbol .openParen :: joinedKinds (ExprTree.kindsOfAll arguments) ++
          [.symbol .closeParen]

end DecoratorTree

namespace SlotTree

def kinds (tree : SlotTree) : List TokenKind :=
  .ofWord tree.name :: .symbol .colon :: tree.type.kinds ++
    ExprTree.initializedKinds tree.initializer

end SlotTree

namespace FunctionTree

/-- The tokens of a body, or the semicolon in its place. -/
def bodyKinds : Option (List StmtTree) → List TokenKind
  | some statements =>
      .symbol .openBrace :: StmtTree.kindsOfAll statements ++
        [.symbol .closeBrace]
  | none => [.symbol .semicolon]

/-- The tokens from the name of a function on. -/
def kindsFromName (tree : FunctionTree) : List TokenKind :=
  .ofWord tree.name :: .symbol .openParen ::
    joinedKinds (tree.params.map SlotTree.kinds) ++
    .symbol .closeParen :: typedKinds tree.returnType ++ bodyKinds tree.body

def kinds (tree : FunctionTree) : List TokenKind :=
  tree.decorators.flatMap DecoratorTree.kinds ++
    keywordIf tree.isExported .exportWord ++
    keywordIf tree.isDeclared .declareWord ++
    .keyword .functionWord :: tree.kindsFromName

def methodKinds (tree : FunctionTree) : List TokenKind :=
  tree.decorators.flatMap DecoratorTree.kinds ++ tree.kindsFromName

end FunctionTree

namespace ItemTree

/-- A name and the name that it is renamed to, if there is one. -/
def renamedKinds (name : String) (newName : Option String) : List TokenKind :=
  match newName with
  | some newName => [.ofWord name, .keyword .asWord, .ofWord newName]
  | none => [.ofWord name]

def importMemberKinds (importedName localName : String) : List TokenKind :=
  renamedKinds importedName
    (if importedName = localName then none else some localName)

def importNamesKinds (members : List (String × String))
    (namespaceName : Option String) : List TokenKind :=
  match namespaceName, members with
  | some name, _ =>
      [.symbol .star, .keyword .asWord, .ofWord name, .keyword .fromWord]
  | none, [] => []
  | none, members =>
      .symbol .openBrace ::
        joinedKinds (members.map fun member =>
          importMemberKinds member.1 member.2) ++
        [.symbol .closeBrace, .keyword .fromWord]

def kinds : ItemTree → List TokenKind
  | function tree => tree.kinds
  | .class name decorators isExported base fields methods =>
      decorators.flatMap DecoratorTree.kinds ++
        keywordIf isExported .exportWord ++
        .keyword .classWord :: .ofWord name ::
        (match base with
          | some base => .ofWord "extends" :: base.kinds
          | none => []) ++
        .symbol .openBrace ::
        fields.flatMap (fun field => field.kinds ++ [.symbol .semicolon]) ++
        methods.flatMap FunctionTree.methodKinds ++ [.symbol .closeBrace]
  | exportList members source =>
      .keyword .exportWord :: .symbol .openBrace ::
        joinedKinds (members.map fun member =>
          renamedKinds member.1 member.2) ++
        .symbol .closeBrace ::
        (match source with
          | some source => [.keyword .fromWord, .string source]
          | none => []) ++
        [.symbol .semicolon]
  | importList members namespaceName source =>
      .keyword .importWord :: importNamesKinds members namespaceName ++
        [.string source, .symbol .semicolon]
  | .variable kind name type value isExported decorators =>
      decorators.flatMap DecoratorTree.kinds ++
        keywordIf isExported .exportWord ++ bindingKinds kind name type value

end ItemTree

def ProgramTree.kinds (tree : ProgramTree) : List TokenKind :=
  tree.items.flatMap ItemTree.kinds

end PluginSurface
