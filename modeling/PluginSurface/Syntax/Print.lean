import PluginSurface.Syntax.Tree

/-!
The text of a program. Reading the text of a program that was read gives the
program back.
-/

namespace PluginSurface

namespace Print

def escapeChar (char : Char) : List Char :=
  match char with
  | '"' => ['\\', '"']
  | '\\' => ['\\', '\\']
  | '\n' => ['\\', 'n']
  | '\r' => ['\\', 'r']
  | '\t' => ['\\', 't']
  | char => [char]

def quote (content : String) : String :=
  String.ofList ('"' :: content.toList.flatMap escapeChar ++ ['"'])

def joined (parts : List String) : String :=
  String.intercalate ", " parts

def padding (level : Nat) : String :=
  String.ofList (List.replicate (2 * level) ' ')

def typeArguments (types : List TypeShape) : String :=
  match types with
  | [] => ""
  | types => "<" ++ joined (types.map TypeShape.text) ++ ">"

def typed (type : Option TypeShape) : String :=
  match type with
  | some type => ": " ++ type.text
  | none => ""

def assignmentMark (operator : Option BinaryOperator) : String :=
  match operator with
  | some operator => " " ++ operator.text ++ "= "
  | none => " = "

end Print

open Print

namespace ExprTree

def isUnary : ExprTree → Bool
  | unary _ _ => true
  | _ => false

mutual

/-- The text of an expression. A unary operand of a unary operator stands in
parentheses, so that the two operators do not run together. -/
def text : ExprTree → String
  | null => "null"
  | bool true => "true"
  | bool false => "false"
  | integer _ spelling => spelling
  | float _ spelling => spelling
  | string content => quote content
  | array elements => "[" ++ joined (texts elements) ++ "]"
  | object [] => "\x7b\x7d"
  | object entries => "\x7b " ++ joined (entryTexts entries) ++ " \x7d"
  | identifier name => name
  | this => "this"
  | new type arguments =>
      "new " ++ type.text ++ "(" ++ joined (texts arguments) ++ ")"
  | call callee types arguments =>
      callee.text ++ typeArguments types ++ "(" ++ joined (texts arguments) ++
        ")"
  | member target property => target.text ++ "." ++ property
  | index target position => target.text ++ "[" ++ position.text ++ "]"
  | binary operator left right =>
      left.text ++ " " ++ operator.text ++ " " ++ right.text
  | unary operator operand =>
      if operand.isUnary then operator.text ++ "(" ++ operand.text ++ ")"
      else operator.text ++ operand.text
  | assign operator target value =>
      target.text ++ assignmentMark operator ++ value.text
  | conditional condition whenTrue whenFalse =>
      condition.text ++ " ? " ++ whenTrue.text ++ " : " ++ whenFalse.text
  | cast operand type => operand.text ++ " as " ++ type.text
  | paren inner => "(" ++ inner.text ++ ")"

def texts : List ExprTree → List String
  | [] => []
  | tree :: rest => tree.text :: texts rest

def entryTexts : List (String × ExprTree) → List String
  | [] => []
  | (key, value) :: rest => (key ++ ": " ++ value.text) :: entryTexts rest

end

end ExprTree

namespace Print

/-- An optional initial value after an equals sign. -/
def initialized (value : Option ExprTree) : String :=
  match value with
  | some value => " = " ++ value.text
  | none => ""

def slot (tree : SlotTree) : String :=
  tree.name ++ ": " ++ tree.type.text ++ initialized tree.initializer

def binding (kind : BindingKind) (name : String) (type : Option TypeShape)
    (value : Option ExprTree) : String :=
  kind.text ++ " " ++ name ++ typed type ++ initialized value ++ ";"

/-- Lines between braces, each one level deeper than the braces. -/
def braced (level : Nat) (lines : List String) : String :=
  "\x7b\n" ++
    String.join (lines.map fun line => padding (level + 1) ++ line ++ "\n") ++
    padding level ++ "\x7d"

end Print

namespace StmtTree

mutual

/-- The text of a statement at a level of nesting. -/
def textAt (level : Nat) : StmtTree → String
  | block statements => braced level (textsAt (level + 1) statements)
  | expression value => value.text ++ ";"
  | binding kind name type value => Print.binding kind name type value
  | branch condition whenTrue none =>
      "if (" ++ condition.text ++ ") " ++ whenTrue.textAt level
  | branch condition whenTrue (some whenFalse) =>
      "if (" ++ condition.text ++ ") " ++ whenTrue.textAt level ++ " else " ++
        whenFalse.textAt level
  | loop condition body =>
      "while (" ++ condition.text ++ ") " ++ body.textAt level
  | .return none => "return;"
  | .return (some value) => "return " ++ value.text ++ ";"
  | throw value => "throw " ++ value.text ++ ";"
  | empty => ";"

def textsAt (level : Nat) : List StmtTree → List String
  | [] => []
  | tree :: rest => tree.textAt level :: textsAt level rest

end

end StmtTree

namespace DecoratorTree

/-- A decorator on a line of its own. -/
def textAt (level : Nat) (tree : DecoratorTree) : String :=
  padding level ++ "@" ++ tree.name ++
    (match tree.arguments with
      | [] => ""
      | arguments => "(" ++ joined (ExprTree.texts arguments) ++ ")") ++
    "\n"

end DecoratorTree

namespace FunctionTree

/-- A function or a method, with the words that come before its name. -/
def textAt (level : Nat) (introduction : String) (tree : FunctionTree) :
    String :=
  String.join (tree.decorators.map (DecoratorTree.textAt level)) ++
    padding level ++
    (if tree.isExported then "export " else "") ++
    (if tree.isDeclared then "declare " else "") ++
    introduction ++ tree.name ++ "(" ++ joined (tree.params.map slot) ++ ")" ++
    typed tree.returnType ++
    match tree.body with
    | some statements =>
        " " ++ braced level (StmtTree.textsAt (level + 1) statements) ++ "\n"
    | none => ";\n"

def text (tree : FunctionTree) : String :=
  tree.textAt 0 "function "

end FunctionTree

namespace ItemTree

def exportMember (localName : String) (exportedName : Option String) : String :=
  match exportedName with
  | some exportedName => localName ++ " as " ++ exportedName
  | none => localName

def importMember (importedName localName : String) : String :=
  if importedName = localName then localName
  else importedName ++ " as " ++ localName

/-- What an import names, with the word before its source. -/
def importNames (members : List (String × String))
    (namespaceName : Option String) : String :=
  match namespaceName, members with
  | some name, _ => "* as " ++ name ++ " from "
  | none, [] => ""
  | none, members =>
      "\x7b " ++
        joined (members.map fun member => importMember member.1 member.2) ++
        " \x7d from "

def text : ItemTree → String
  | function tree => tree.text
  | .class name decorators isExported base fields methods =>
      String.join (decorators.map (DecoratorTree.textAt 0)) ++
        (if isExported then "export " else "") ++ "class " ++ name ++
        (match base with
          | some base => " extends " ++ base.text
          | none => "") ++
        " \x7b\n" ++
        String.join
          (fields.map fun field => padding 1 ++ slot field ++ ";\n") ++
        String.join (methods.map (FunctionTree.textAt 1 "")) ++ "\x7d\n"
  | exportList members source =>
      "export \x7b " ++
        joined (members.map fun member => exportMember member.1 member.2) ++
        " \x7d" ++
        (match source with
          | some source => " from " ++ quote source
          | none => "") ++
        ";\n"
  | importList members namespaceName source =>
      "import " ++ importNames members namespaceName ++ quote source ++ ";\n"
  | .variable kind name type value isExported decorators =>
      String.join (decorators.map (DecoratorTree.textAt 0)) ++
        (if isExported then "export " else "") ++
        Print.binding kind name type value ++ "\n"

end ItemTree

namespace ProgramTree

/-- The declarations with an empty line between them. -/
def text (tree : ProgramTree) : String :=
  String.intercalate "\n" (tree.items.map ItemTree.text)

end ProgramTree

def Program.text (program : Program) : String :=
  program.tree.text

/-- The text of one function of a program. -/
def Program.functionText (program : Program) (function : FunctionDecl) :
    String :=
  (function.tree program.arena).text

end PluginSurface
