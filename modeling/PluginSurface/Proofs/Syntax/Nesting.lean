import PluginSurface.Proofs.Source.Positions
import PluginSurface.Proofs.Syntax.Closure

/-!
# Parts of a program that nest

Items, parameters, fields, blocks, statements, expressions, decorators, type
annotations and names are the parts of a program that stand somewhere in its
text. A part nests if its span contains the spans of the parts directly inside
it and these nest as well. Expressions and statements stand where the arena says
so, and adding nodes to it moves none of them.
-/

namespace PluginSurface

def Item.span : Item → Span
  | .function decl => decl.span
  | .class decl => decl.span
  | .exportList decl => decl.span
  | .importList decl => decl.span
  | .variable decl => decl.span

/-- A part of a program with a place in the text. A method is a part as a
function is. -/
inductive Part where
  | name (name : Name)
  | type (type : TypeExpr)
  | expr (id : ExprId)
  | stmt (id : StmtId)
  | block (block : Block)
  | decorator (decorator : Decorator)
  | param (param : Param)
  | field (field : FieldDecl)
  | item (item : Item)

/-! ## What is directly inside a part -/

def TypeExpr.inside : TypeExpr → List Part
  | .named segments arguments _ =>
      segments.map Part.name ++ arguments.map Part.type
  | .array element _ => [.type element]
  | .nullable inner _ => [.type inner]

/-- A key of an object literal and its value. -/
def entryParts (entry : Name × ExprId) : List Part :=
  [.name entry.1, .expr entry.2]

def Expr.inside : Expr → List Part
  | .literal (.object entries) => entries.flatMap entryParts
  | .new type arguments => .type type :: arguments.map Part.expr
  | .call callee types arguments =>
      .expr callee :: (types.map Part.type ++ arguments.map Part.expr)
  | .member object property => [.expr object, .name property]
  | .cast operand type => [.expr operand, .type type]
  | node => node.children.map Part.expr

def Stmt.inside : Stmt → List Part
  | .block inner => [.block inner]
  | .binding _ name type value =>
      .name name :: (type.toList.map Part.type ++ value.toList.map Part.expr)
  | .expression value | .throw value => [.expr value]
  | .branch condition whenTrue whenFalse =>
      .expr condition :: .stmt whenTrue :: whenFalse.toList.map Part.stmt
  | .loop condition body => [.expr condition, .stmt body]
  | .return value => value.toList.map Part.expr
  | .empty => []

def Block.inside (block : Block) : List Part :=
  block.statements.map Part.stmt

def Decorator.inside (decorator : Decorator) : List Part :=
  .name decorator.name :: decorator.arguments.map Part.expr

def Param.inside (param : Param) : List Part :=
  .name param.name :: .type param.type :: param.initializer.toList.map Part.expr

def FieldDecl.inside (field : FieldDecl) : List Part :=
  .name field.name :: .type field.type :: field.initializer.toList.map Part.expr

def FunctionDecl.inside (function : FunctionDecl) : List Part :=
  .name function.name :: (function.decorators.map Part.decorator ++
    (function.params.map Part.param ++
      (function.returnType.toList.map Part.type ++
        function.body.toList.map Part.block)))

def ClassDecl.inside (class_ : ClassDecl) : List Part :=
  .name class_.name :: (class_.decorators.map Part.decorator ++
    (class_.base.toList.map Part.type ++
      (class_.fields.map Part.field ++
        class_.methods.map (Part.item ∘ Item.function))))

/-- The names of a member of an export list. -/
def ExportMember.parts (member : ExportMember) : List Part :=
  .name member.localName :: member.exportedName.toList.map Part.name

/-- The names of a member of an import list. -/
def ImportMember.parts (member : ImportMember) : List Part :=
  [.name member.importedName, .name member.localName]

def ExportDecl.inside (exportList : ExportDecl) : List Part :=
  exportList.members.flatMap ExportMember.parts

def ImportDecl.inside (importList : ImportDecl) : List Part :=
  importList.namespaceName.toList.map Part.name ++
    importList.members.flatMap ImportMember.parts

def VariableDecl.inside (decl : VariableDecl) : List Part :=
  .name decl.name :: (decl.decorators.map Part.decorator ++
    (decl.type.toList.map Part.type ++ decl.value.toList.map Part.expr))

def Item.inside : Item → List Part
  | .function decl => decl.inside
  | .class decl => decl.inside
  | .exportList decl => decl.inside
  | .importList decl => decl.inside
  | .variable decl => decl.inside

namespace Part

/-- Where a part stands. -/
def span (arena : Arena) : Part → Span
  | .name word => word.span
  | .type annotation => annotation.span
  | .expr id => (arena.expr id).span
  | .stmt id => (arena.stmt id).span
  | .block body => body.span
  | .decorator decl => decl.span
  | .param decl => decl.span
  | .field decl => decl.span
  | .item decl => decl.span

/-- The parts directly inside a part. -/
def inside (arena : Arena) : Part → List Part
  | .name _ => []
  | .type annotation => annotation.inside
  | .expr id => (arena.expr id).node.inside
  | .stmt id => (arena.stmt id).node.inside
  | .block body => body.inside
  | .decorator decl => decl.inside
  | .param decl => decl.inside
  | .field decl => decl.inside
  | .item decl => decl.inside

/-- The arena has a part if the part is one of its nodes. -/
def IsStored (arena : Arena) : Part → Prop
  | .expr id => arena.Has (.expr id)
  | .stmt id => arena.Has (.stmt id)
  | _ => True

/-- A part that contains what is directly inside it, as do the parts inside. -/
inductive Nests (arena : Arena) : Part → Prop where
  | intro {part : Part} (stored : part.IsStored arena)
      (contains : ∀ inner ∈ part.inside arena,
        (part.span arena).Contains (inner.span arena))
      (further : ∀ inner ∈ part.inside arena, Nests arena inner) :
      Nests arena part

namespace Nests

variable {arena larger : Arena} {part : Part}

theorem stored (nests : part.Nests arena) : part.IsStored arena := by
  cases nests
  assumption

theorem contains (nests : part.Nests arena) :
    ∀ inner ∈ part.inside arena,
      (part.span arena).Contains (inner.span arena) := by
  cases nests
  assumption

theorem further (nests : part.Nests arena) :
    ∀ inner ∈ part.inside arena, inner.Nests arena := by
  cases nests
  assumption

theorem name (name : Name) : (Part.name name).Nests arena :=
  .intro trivial (List.forall_mem_nil _) (List.forall_mem_nil _)

end Nests

/-! ## Larger arenas -/

section

variable {smaller larger : Arena} {part : Part}

theorem IsStored.extends (stored : part.IsStored smaller)
    (extended : smaller.Extends larger) : part.IsStored larger := by
  cases part with
  | expr id =>
      have known : smaller.Has (.expr id) := stored
      exact extended.has known
  | stmt id =>
      have known : smaller.Has (.stmt id) := stored
      exact extended.has known
  | _ => trivial

/-- A part that is stored stays where it is. -/
theorem span_extends (stored : part.IsStored smaller)
    (extended : smaller.Extends larger) :
    part.span larger = part.span smaller := by
  cases part with
  | expr id => exact congrArg Located.span (extended.expr_eq stored)
  | stmt id => exact congrArg Located.span (extended.stmt_eq stored)
  | _ => rfl

theorem inside_extends (stored : part.IsStored smaller)
    (extended : smaller.Extends larger) :
    part.inside larger = part.inside smaller := by
  cases part with
  | expr id =>
      have same := extended.expr_eq stored
      exact congrArg (fun located => located.node.inside) same
  | stmt id =>
      have same := extended.stmt_eq stored
      exact congrArg (fun located => located.node.inside) same
  | _ => rfl

theorem Nests.extends (nests : part.Nests smaller)
    (extended : smaller.Extends larger) : part.Nests larger := by
  induction nests with
  | intro stored contains further inductionHypothesis =>
      refine .intro (stored.extends extended) ?_ ?_
      · intro inner member
        rw [inside_extends stored extended] at member
        rw [span_extends stored extended,
          span_extends (further inner member).stored extended]
        exact contains inner member
      · intro inner member
        rw [inside_extends stored extended] at member
        exact inductionHypothesis inner member

end

end Part

namespace Arena

/-- Every node of an arena nests. -/
structure Nested (arena : Arena) : Prop where
  exprs : ∀ id, arena.Has (.expr id) → (Part.expr id).Nests arena
  stmts : ∀ id, arena.Has (.stmt id) → (Part.stmt id).Nests arena

theorem nested_empty : empty.Nested where
  exprs _ stored := absurd stored (Nat.not_lt_zero _)
  stmts _ stored := absurd stored (Nat.not_lt_zero _)

variable {arena : Arena}

theorem expr_addExpr (arena : Arena) (node : Expr) (span : Span) :
    (arena.addExpr node span).2.expr (arena.addExpr node span).1 =
      ⟨node, span⟩ := by
  simp [addExpr, expr, Array.getD_eq_getD_getElem?]

theorem stmt_addStmt (arena : Arena) (node : Stmt) (span : Span) :
    (arena.addStmt node span).2.stmt (arena.addStmt node span).1 =
      ⟨node, span⟩ := by
  simp [addStmt, stmt, Array.getD_eq_getD_getElem?]

section

variable {span : Span}

/-- An expression that is added nests if what is inside it does. -/
theorem nests_addExpr {node : Expr}
    (contains : ∀ inner ∈ node.inside, span.Contains (inner.span arena))
    (nests : ∀ inner ∈ node.inside, inner.Nests arena) :
    (Part.expr (arena.addExpr node span).1).Nests
      (arena.addExpr node span).2 := by
  have extended := arena.extends_addExpr node span
  have added := arena.expr_addExpr node span
  refine .intro (arena.has_addExpr node span) ?_ ?_
  · intro inner member
    rw [Part.inside, added] at member
    have kept := Part.span_extends (nests inner member).stored extended
    rw [kept, Part.span, added]
    exact contains inner member
  · intro inner member
    rw [Part.inside, added] at member
    exact (nests inner member).extends extended

theorem nests_addStmt {node : Stmt}
    (contains : ∀ inner ∈ node.inside, span.Contains (inner.span arena))
    (nests : ∀ inner ∈ node.inside, inner.Nests arena) :
    (Part.stmt (arena.addStmt node span).1).Nests
      (arena.addStmt node span).2 := by
  have extended := arena.extends_addStmt node span
  have added := arena.stmt_addStmt node span
  refine .intro (arena.has_addStmt node span) ?_ ?_
  · intro inner member
    rw [Part.inside, added] at member
    have kept := Part.span_extends (nests inner member).stored extended
    rw [kept, Part.span, added]
    exact contains inner member
  · intro inner member
    rw [Part.inside, added] at member
    exact (nests inner member).extends extended

end

theorem Nested.addExpr (nested : arena.Nested) {node : Expr} {span : Span}
    (added : (Part.expr (arena.addExpr node span).1).Nests
      (arena.addExpr node span).2) : (arena.addExpr node span).2.Nested where
  exprs id stored := by
    have extended := arena.extends_addExpr node span
    by_cases isNew : id = (arena.addExpr node span).1
    · exact isNew ▸ added
    · refine (nested.exprs id ?_).extends extended
      have other : id.index ≠ arena.exprs.size := fun same =>
        isNew (congrArg ExprId.mk same)
      simp only [Has, Arena.addExpr, Array.size_push] at stored ⊢
      omega
  stmts id stored :=
    (nested.stmts id stored).extends (arena.extends_addExpr node span)

theorem Nested.addStmt (nested : arena.Nested) {node : Stmt} {span : Span}
    (added : (Part.stmt (arena.addStmt node span).1).Nests
      (arena.addStmt node span).2) : (arena.addStmt node span).2.Nested where
  exprs id stored :=
    (nested.exprs id stored).extends (arena.extends_addStmt node span)
  stmts id stored := by
    have extended := arena.extends_addStmt node span
    by_cases isNew : id = (arena.addStmt node span).1
    · exact isNew ▸ added
    · refine (nested.stmts id ?_).extends extended
      have other : id.index ≠ arena.stmts.size := fun same =>
        isNew (congrArg StmtId.mk same)
      simp only [Has, Arena.addStmt, Array.size_push] at stored ⊢
      omega

end Arena

/-! ## Programs -/

namespace Program

/-- The parts of a program: its items, all nodes of its arena, and what is
inside of these. -/
inductive Comprises (program : Program) : Part → Prop where
  | item {item : Item} (member : item ∈ program.items) :
      Comprises program (.item item)
  | expr {id : ExprId} (stored : program.arena.Has (.expr id)) :
      Comprises program (.expr id)
  | stmt {id : StmtId} (stored : program.arena.Has (.stmt id)) :
      Comprises program (.stmt id)
  | inside {part inner : Part} (outer : Comprises program part)
      (member : inner ∈ part.inside program.arena) : Comprises program inner

/-- The span of a program contains the spans of its items, and the span of each
of its parts contains the spans of the parts directly inside. -/
structure SpansNest (program : Program) : Prop where
  items : ∀ item ∈ program.items, program.span.Contains item.span
  parts : ∀ part, program.Comprises part →
    ∀ inner ∈ part.inside program.arena,
      (part.span program.arena).Contains (inner.span program.arena)

/-- If the items and the nodes of a program nest, so do all of its parts. -/
theorem nests_of_comprises {program : Program}
    (items : ∀ item ∈ program.items, (Part.item item).Nests program.arena)
    (nested : program.arena.Nested) {part : Part}
    (comprises : program.Comprises part) : part.Nests program.arena := by
  induction comprises with
  | item member => exact items _ member
  | expr stored => exact nested.exprs _ stored
  | stmt stored => exact nested.stmts _ stored
  | inside _ member inductionHypothesis =>
      exact inductionHypothesis.further _ member

end Program

end PluginSurface
