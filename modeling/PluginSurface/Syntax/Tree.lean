import PluginSurface.Syntax.Program

/-!
Programs as trees. A tree says what a program is made of without saying where
it is written and how its arena numbers it, so two programs that differ only in
layout have the same tree.
-/

namespace PluginSurface

/-- An expression as a tree. -/
inductive ExprTree where
  | null
  | bool (value : Bool)
  | integer (value : UInt64) (spelling : String)
  | float (value : Float) (spelling : String)
  | string (content : String)
  | array (elements : List ExprTree)
  | object (entries : List (String × ExprTree))
  | identifier (name : String)
  | this
  | new (type : TypeShape) (arguments : List ExprTree)
  | call (callee : ExprTree) (typeArguments : List TypeShape)
      (arguments : List ExprTree)
  | member (object : ExprTree) (property : String)
  | index (object index : ExprTree)
  | binary (operator : BinaryOperator) (left right : ExprTree)
  | unary (operator : UnaryOperator) (operand : ExprTree)
  | assign (operator : Option BinaryOperator) (target value : ExprTree)
  | conditional (condition whenTrue whenFalse : ExprTree)
  | cast (operand : ExprTree) (type : TypeShape)
  | paren (inner : ExprTree)
deriving Inhabited

/-- A statement as a tree. -/
inductive StmtTree where
  | block (statements : List StmtTree)
  | expression (value : ExprTree)
  | binding (kind : BindingKind) (name : String) (type : Option TypeShape)
      (value : Option ExprTree)
  | branch (condition : ExprTree) (whenTrue : StmtTree)
      (whenFalse : Option StmtTree)
  | loop (condition : ExprTree) (body : StmtTree)
  | return (value : Option ExprTree)
  | throw (value : ExprTree)
  | empty
deriving Inhabited

structure DecoratorTree where
  name : String
  arguments : List ExprTree

/-- A parameter or a field. -/
structure SlotTree where
  name : String
  type : TypeShape
  initializer : Option ExprTree

structure FunctionTree where
  name : String
  decorators : List DecoratorTree
  external : Option ExternalName
  isExported : Bool
  isDeclared : Bool
  params : List SlotTree
  returnType : Option TypeShape
  body : Option (List StmtTree)

inductive ItemTree where
  | function (tree : FunctionTree)
  | class (name : String) (decorators : List DecoratorTree)
      (isExported : Bool) (base : Option TypeShape) (fields : List SlotTree)
      (methods : List FunctionTree)
  | exportList (members : List (String × Option String))
      (source : Option String)
  | importList (members : List (String × String))
      (namespaceName : Option String) (source : String)
  | variable (kind : BindingKind) (name : String) (type : Option TypeShape)
      (value : Option ExprTree) (isExported : Bool)
      (decorators : List DecoratorTree)

structure ProgramTree where
  path : String
  kind : SourceKind
  items : List ItemTree

namespace Arena

/-- The tree below an expression. The first argument bounds its height; the
number of an expression plus one is bound enough, as parts have smaller
numbers. -/
def exprTreeAt (arena : Arena) : Nat → ExprId → ExprTree
  | 0, _ => .null
  | bound + 1, id =>
      let tree := exprTreeAt arena bound
      match (arena.expr id).node with
      | .literal .null => .null
      | .literal (.bool value) => .bool value
      | .literal (.integer value spelling) => .integer value spelling
      | .literal (.float value spelling) => .float value spelling
      | .literal (.string content) => .string content
      | .literal (.array elements) => .array (elements.map tree)
      | .literal (.object entries) =>
          .object (entries.map fun entry => (entry.1.text, tree entry.2))
      | .identifier name => .identifier name
      | .this => .this
      | .new type arguments => .new type.shape (arguments.map tree)
      | .call callee types arguments =>
          .call (tree callee) (types.map TypeExpr.shape) (arguments.map tree)
      | .member object property => .member (tree object) property.text
      | .index object index => .index (tree object) (tree index)
      | .binary operator left right =>
          .binary operator (tree left) (tree right)
      | .unary operator operand => .unary operator (tree operand)
      | .assign operator target value =>
          .assign operator (tree target) (tree value)
      | .conditional condition whenTrue whenFalse =>
          .conditional (tree condition) (tree whenTrue) (tree whenFalse)
      | .cast operand type => .cast (tree operand) type.shape
      | .paren inner => .paren (tree inner)

def exprTree (arena : Arena) (id : ExprId) : ExprTree :=
  arena.exprTreeAt (id.index + 1) id

/-- The tree below a statement, of bounded height. -/
def stmtTreeAt (arena : Arena) : Nat → StmtId → StmtTree
  | 0, _ => .empty
  | bound + 1, id =>
      let tree := stmtTreeAt arena bound
      match (arena.stmt id).node with
      | .block block => .block (block.statements.map tree)
      | .expression value => .expression (arena.exprTree value)
      | .binding kind name type value =>
          .binding kind name.text (type.map TypeExpr.shape)
            (value.map arena.exprTree)
      | .branch condition whenTrue whenFalse =>
          .branch (arena.exprTree condition) (tree whenTrue)
            (whenFalse.map tree)
      | .loop condition body => .loop (arena.exprTree condition) (tree body)
      | .return value => .return (value.map arena.exprTree)
      | .throw value => .throw (arena.exprTree value)
      | .empty => .empty

def stmtTree (arena : Arena) (id : StmtId) : StmtTree :=
  arena.stmtTreeAt (id.index + 1) id

end Arena

def Decorator.tree (arena : Arena) (decorator : Decorator) : DecoratorTree :=
  ⟨decorator.name.text, decorator.arguments.map arena.exprTree⟩

def Param.tree (arena : Arena) (param : Param) : SlotTree :=
  ⟨param.name.text, param.type.shape, param.initializer.map arena.exprTree⟩

def FieldDecl.tree (arena : Arena) (field : FieldDecl) : SlotTree :=
  ⟨field.name.text, field.type.shape, field.initializer.map arena.exprTree⟩

def FunctionDecl.tree (arena : Arena) (function : FunctionDecl) :
    FunctionTree where
  name := function.name.text
  decorators := function.decorators.map (Decorator.tree arena)
  external := function.external
  isExported := function.isExported
  isDeclared := function.isDeclared
  params := function.params.map (Param.tree arena)
  returnType := function.returnType.map TypeExpr.shape
  body := function.body.map fun body => body.statements.map arena.stmtTree

def Item.tree (arena : Arena) : Item → ItemTree
  | .function decl => .function (decl.tree arena)
  | .class decl =>
      .class decl.name.text (decl.decorators.map (Decorator.tree arena))
        decl.isExported (decl.base.map TypeExpr.shape)
        (decl.fields.map (FieldDecl.tree arena))
        (decl.methods.map (FunctionDecl.tree arena))
  | .exportList decl =>
      .exportList
        (decl.members.map fun member =>
          (member.localName.text, member.exportedName.map Name.text))
        decl.source
  | .importList decl =>
      .importList
        (decl.members.map fun member =>
          (member.importedName.text, member.localName.text))
        (decl.namespaceName.map Name.text) decl.source
  | .variable decl =>
      .variable decl.kind decl.name.text (decl.type.map TypeExpr.shape)
        (decl.value.map arena.exprTree) decl.isExported
        (decl.decorators.map (Decorator.tree arena))

def Program.tree (program : Program) : ProgramTree :=
  ⟨program.path, program.kind, program.items.map (Item.tree program.arena)⟩

end PluginSurface
