import PluginSurface.Syntax.Program

/-!
# Closed arenas

A point of a program is an expression or a statement of its arena. An arena is
closed if every part of a stored node is stored before the node, and a program
is closed if its items refer to stored nodes only. Parsing and masking add nodes
and never change one: an arena extends another if it has all of its nodes.
-/

namespace PluginSurface

/-- An expression or a statement of an arena. -/
inductive Point where
  | expr (id : ExprId)
  | stmt (id : StmtId)
deriving DecidableEq

/-! ## What nodes and declarations refer to -/

def Expr.children : Expr → List ExprId
  | .literal (.array elements) => elements
  | .literal (.object entries) => entries.map Prod.snd
  | .literal _ | .identifier _ | .this => []
  | .new _ arguments => arguments
  | .call callee _ arguments => callee :: arguments
  | .member object _ => [object]
  | .index object position => [object, position]
  | .binary _ left right => [left, right]
  | .unary _ operand => [operand]
  | .assign _ target value => [target, value]
  | .conditional condition whenTrue whenFalse =>
      [condition, whenTrue, whenFalse]
  | .cast operand _ => [operand]
  | .paren inner => [inner]

def Block.points (block : Block) : List Point :=
  block.statements.map Point.stmt

/-- The expression that may stand where one is optional. -/
def optionalPoints (value : Option ExprId) : List Point :=
  value.toList.map Point.expr

def Stmt.points : Stmt → List Point
  | .block inner => inner.points
  | .expression value => [.expr value]
  | .binding _ _ _ value => optionalPoints value
  | .branch condition whenTrue whenFalse =>
      .expr condition :: .stmt whenTrue :: whenFalse.toList.map Point.stmt
  | .loop condition body => [.expr condition, .stmt body]
  | .return value => optionalPoints value
  | .throw value => [.expr value]
  | .empty => []

def Decorator.points (decorator : Decorator) : List Point :=
  decorator.arguments.map Point.expr

def Param.points (param : Param) : List Point :=
  optionalPoints param.initializer

def FieldDecl.points (field : FieldDecl) : List Point :=
  optionalPoints field.initializer

namespace FunctionDecl

/-- The defaults of a function and the statements of its body: what a call of it
evaluates. -/
def entries (function : FunctionDecl) : List Point :=
  function.params.flatMap Param.points ++
    function.body.toList.flatMap Block.points

def points (function : FunctionDecl) : List Point :=
  function.decorators.flatMap Decorator.points ++ function.entries

end FunctionDecl

def ClassDecl.points (class_ : ClassDecl) : List Point :=
  class_.decorators.flatMap Decorator.points ++
    (class_.fields.flatMap FieldDecl.points ++
      class_.methods.flatMap FunctionDecl.points)

def VariableDecl.points (decl : VariableDecl) : List Point :=
  decl.decorators.flatMap Decorator.points ++ optionalPoints decl.value

def Item.points : Item → List Point
  | .function decl => decl.points
  | .class decl => decl.points
  | .variable decl => decl.points
  | .exportList _ | .importList _ => []

/-! ## Arenas -/

namespace Arena

def Has (arena : Arena) : Point → Prop
  | .expr id => id.index < arena.exprs.size
  | .stmt id => id.index < arena.stmts.size

/-- Whether a point is stored before the statement with a number. -/
def Precedes (arena : Arena) (index : Nat) : Point → Prop
  | .expr id => id.index < arena.exprs.size
  | .stmt id => id.index < index

instance (arena : Arena) : DecidablePred arena.Has
  | .expr id => inferInstanceAs (Decidable (id.index < arena.exprs.size))
  | .stmt id => inferInstanceAs (Decidable (id.index < arena.stmts.size))

instance (arena : Arena) (index : Nat) : DecidablePred (arena.Precedes index)
  | .expr id => inferInstanceAs (Decidable (id.index < arena.exprs.size))
  | .stmt id => inferInstanceAs (Decidable (id.index < index))

/-- `larger` has all nodes of `smaller` under the same numbers. -/
structure Extends (smaller larger : Arena) : Prop where
  exprs : ∀ {index : Nat} {located : Located Expr},
    smaller.exprs[index]? = some located → larger.exprs[index]? = some located
  stmts : ∀ {index : Nat} {located : Located Stmt},
    smaller.stmts[index]? = some located → larger.stmts[index]? = some located

/-- Every part of a node is stored before it. -/
structure Closed (arena : Arena) : Prop where
  exprs : ∀ {index : Nat} {located : Located Expr},
    arena.exprs[index]? = some located →
      ∀ child ∈ located.node.children, child.index < index
  stmts : ∀ {index : Nat} {located : Located Stmt},
    arena.stmts[index]? = some located →
      ∀ point ∈ located.node.points, arena.Precedes index point

theorem closed_iff (arena : Arena) :
    arena.Closed ↔
      (∀ index : Fin arena.exprs.size,
        ∀ child ∈ arena.exprs[index].node.children, child.index < index) ∧
      ∀ index : Fin arena.stmts.size,
        ∀ point ∈ arena.stmts[index].node.points,
          arena.Precedes index point := by
  constructor
  · rintro ⟨exprs, stmts⟩
    exact ⟨fun index => exprs (Array.getElem?_eq_getElem index.isLt),
      fun index => stmts (Array.getElem?_eq_getElem index.isLt)⟩
  · rintro ⟨exprs, stmts⟩
    constructor
    · intro index located stored
      obtain ⟨inside, rfl⟩ := Array.getElem?_eq_some_iff.mp stored
      exact exprs ⟨index, inside⟩
    · intro index located stored
      obtain ⟨inside, rfl⟩ := Array.getElem?_eq_some_iff.mp stored
      exact stmts ⟨index, inside⟩

instance (arena : Arena) : Decidable arena.Closed :=
  decidable_of_iff _ arena.closed_iff.symm

theorem closed_empty : empty.Closed where
  exprs stored := by simp [empty] at stored
  stmts stored := by simp [empty] at stored

namespace Extends

variable {smaller larger : Arena}

theorem refl (arena : Arena) : arena.Extends arena :=
  ⟨id, id⟩

theorem trans {first second third : Arena} (left : first.Extends second)
    (right : second.Extends third) : first.Extends third :=
  ⟨fun stored => right.exprs (left.exprs stored),
    fun stored => right.stmts (left.stmts stored)⟩

theorem has (extended : smaller.Extends larger) {point : Point}
    (stored : smaller.Has point) : larger.Has point := by
  cases point with
  | expr id =>
      exact (Array.getElem?_eq_some_iff.mp
        (extended.exprs (Array.getElem?_eq_getElem stored))).1
  | stmt id =>
      exact (Array.getElem?_eq_some_iff.mp
        (extended.stmts (Array.getElem?_eq_getElem stored))).1

theorem expr_eq (extended : smaller.Extends larger) {id : ExprId}
    (stored : smaller.Has (.expr id)) : larger.expr id = smaller.expr id := by
  have kept := extended.exprs (Array.getElem?_eq_getElem stored)
  simp [Arena.expr, Array.getD_eq_getD_getElem?, kept,
    Array.getElem?_eq_getElem stored]

theorem stmt_eq (extended : smaller.Extends larger) {id : StmtId}
    (stored : smaller.Has (.stmt id)) : larger.stmt id = smaller.stmt id := by
  have kept := extended.stmts (Array.getElem?_eq_getElem stored)
  simp [Arena.stmt, Array.getD_eq_getD_getElem?, kept,
    Array.getElem?_eq_getElem stored]

end Extends

/-! ## Adding nodes -/

variable (arena : Arena)

theorem extends_addExpr (node : Expr) (span : Span) :
    arena.Extends (arena.addExpr node span).2 where
  exprs {index located} stored := by
    have bound := (Array.getElem?_eq_some_iff.mp stored).1
    simpa [addExpr, Array.getElem?_push, Nat.ne_of_lt bound] using stored
  stmts stored := stored

theorem extends_addStmt (node : Stmt) (span : Span) :
    arena.Extends (arena.addStmt node span).2 where
  exprs stored := stored
  stmts {index located} stored := by
    have bound := (Array.getElem?_eq_some_iff.mp stored).1
    simpa [addStmt, Array.getElem?_push, Nat.ne_of_lt bound] using stored

theorem has_addExpr (node : Expr) (span : Span) :
    (arena.addExpr node span).2.Has (.expr (arena.addExpr node span).1) := by
  simp [addExpr, Has]

theorem has_addStmt (node : Stmt) (span : Span) :
    (arena.addStmt node span).2.Has (.stmt (arena.addStmt node span).1) := by
  simp [addStmt, Has]

variable {arena}

theorem Closed.addExpr (closed : arena.Closed) {node : Expr}
    (children : ∀ child ∈ node.children, arena.Has (.expr child))
    (span : Span) : (arena.addExpr node span).2.Closed where
  exprs {index located} stored := by
    simp only [Arena.addExpr, Array.getElem?_push] at stored
    split at stored
    · cases stored
      subst index
      exact children
    · exact closed.exprs stored
  stmts {index located} stored point member := by
    have before := closed.stmts stored point member
    cases point with
    | expr id =>
        simp only [Precedes, Arena.addExpr, Array.size_push]
        exact Nat.lt_succ_of_lt before
    | stmt id => exact before

theorem Closed.addStmt (closed : arena.Closed) {node : Stmt}
    (parts : ∀ point ∈ node.points, arena.Has point) (span : Span) :
    (arena.addStmt node span).2.Closed where
  exprs stored := closed.exprs stored
  stmts {index located} stored point member := by
    simp only [Arena.addStmt, Array.getElem?_push] at stored
    split at stored
    · cases stored
      subst index
      have before := parts point member
      cases point with
      | expr id => exact before
      | stmt id => exact before
    · exact closed.stmts stored point member

theorem Closed.has_child (closed : arena.Closed) {id child : ExprId}
    (stored : arena.Has (.expr id))
    (member : child ∈ (arena.expr id).node.children) :
    arena.Has (.expr child) := by
  have found := Array.getElem?_eq_getElem stored
  have same : arena.expr id = arena.exprs[id.index] := by
    simp [Arena.expr, Array.getD_eq_getD_getElem?, found]
  rw [same] at member
  exact Nat.lt_trans (closed.exprs found child member) stored

theorem Closed.has_point (closed : arena.Closed) {id : StmtId} {point : Point}
    (stored : arena.Has (.stmt id))
    (member : point ∈ (arena.stmt id).node.points) : arena.Has point := by
  have found := Array.getElem?_eq_getElem stored
  have same : arena.stmt id = arena.stmts[id.index] := by
    simp [Arena.stmt, Array.getD_eq_getD_getElem?, found]
  rw [same] at member
  have before := closed.stmts found point member
  cases point with
  | expr child => exact before
  | stmt child => exact Nat.lt_trans before stored

end Arena

/-! ## Programs -/

namespace Program

/-- All points that the items of a program refer to. -/
def points (program : Program) : List Point :=
  program.items.flatMap Item.points

/-- The arena of a program is closed and has all that its items refer to. -/
structure Closed (program : Program) : Prop where
  arena : program.arena.Closed
  points : ∀ point ∈ program.points, program.arena.Has point

instance (program : Program) : Decidable program.Closed :=
  decidable_of_iff
    (program.arena.Closed ∧ ∀ point ∈ program.points, program.arena.Has point)
    ⟨fun ⟨arena, points⟩ => ⟨arena, points⟩,
      fun ⟨arena, points⟩ => ⟨arena, points⟩⟩

end Program

end PluginSurface
