import PluginSurface.Syntax.TypeExpr
import PluginSurface.Syntax.Operator

/-!
Expressions and statements of a program. Nodes live in an arena and refer to
each other by number; a node is stored after the nodes it refers to, so the
numbers of its parts are smaller than its own.
-/

namespace PluginSurface

/-- The number of an expression in its arena. A build keeps it in 32 bits. It has
no bound here, and what is proved of it holds of arenas with at most `2 ^ 32`
expressions. -/
structure ExprId where
  index : Nat
deriving DecidableEq, Inhabited

/-- The number of a statement in its arena, which a build keeps in 32 bits like
that of an expression. -/
structure StmtId where
  index : Nat
deriving DecidableEq, Inhabited

inductive Literal where
  | null
  | bool (value : Bool)
  | integer (value : UInt64) (spelling : String)
  | float (value : Float) (spelling : String)
  | string (content : String)
  | array (elements : List ExprId)
  | object (entries : List (Name × ExprId))
deriving Inhabited

/-- An expression whose parts are numbers of other expressions. -/
inductive Expr where
  | literal (literal : Literal)
  | identifier (name : String)
  | this
  | new (type : TypeExpr) (arguments : List ExprId)
  | call (callee : ExprId) (typeArguments : List TypeExpr)
      (arguments : List ExprId)
  | member (object : ExprId) (property : Name)
  | index (object index : ExprId)
  | binary (operator : BinaryOperator) (left right : ExprId)
  | unary (operator : UnaryOperator) (operand : ExprId)
  /-- An assignment, with the operator of a compound one. -/
  | assign (operator : Option BinaryOperator) (target value : ExprId)
  | conditional (condition whenTrue whenFalse : ExprId)
  | cast (operand : ExprId) (type : TypeExpr)
  | paren (inner : ExprId)
deriving Inhabited

inductive BindingKind where
  | letBinding | constBinding | varBinding
deriving DecidableEq, Inhabited

def BindingKind.text : BindingKind → String
  | letBinding => "let"
  | constBinding => "const"
  | varBinding => "var"

/-- Statements between braces. -/
structure Block where
  statements : List StmtId
  span : Span
deriving Inhabited

inductive Stmt where
  | block (block : Block)
  | expression (expression : ExprId)
  | binding (kind : BindingKind) (name : Name)
      (type : Option TypeExpr) (value : Option ExprId)
  | branch (condition : ExprId) (whenTrue : StmtId)
      (whenFalse : Option StmtId)
  | loop (condition : ExprId) (body : StmtId)
  | return (value : Option ExprId)
  | throw (value : ExprId)
  | empty
deriving Inhabited

/-- A node and where it is written. -/
structure Located (Node : Type) where
  node : Node
  span : Span
deriving Inhabited

/-- The expressions and statements of one program. -/
structure Arena where
  exprs : Array (Located Expr)
  stmts : Array (Located Stmt)
deriving Inhabited

namespace Arena

def empty : Arena :=
  ⟨#[], #[]⟩

def expr (arena : Arena) (id : ExprId) : Located Expr :=
  arena.exprs.getD id.index default

def stmt (arena : Arena) (id : StmtId) : Located Stmt :=
  arena.stmts.getD id.index default

def addExpr (arena : Arena) (node : Expr) (span : Span) : ExprId × Arena :=
  (⟨arena.exprs.size⟩, { arena with exprs := arena.exprs.push ⟨node, span⟩ })

def addStmt (arena : Arena) (node : Stmt) (span : Span) : StmtId × Arena :=
  (⟨arena.stmts.size⟩, { arena with stmts := arena.stmts.push ⟨node, span⟩ })

end Arena

end PluginSurface
