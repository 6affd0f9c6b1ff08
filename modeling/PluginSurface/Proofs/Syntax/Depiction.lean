import PluginSurface.Proofs.Syntax.Tree

/-!
# What an arena depicts

Ids and declarations refer to points of an arena and stand for a tree there. An
arena depicts a tree by an id if it has all points that the id refers to; it
still does when nodes are added to it.
-/

namespace PluginSurface

/-! ## Nodes -/

/-- The tree of a node whose parts have given trees. -/
def Expr.treeWith (view : ExprId → ExprTree) : Expr → ExprTree
  | .literal .null => .null
  | .literal (.bool value) => .bool value
  | .literal (.integer value spelling) => .integer value spelling
  | .literal (.float value spelling) => .float value spelling
  | .literal (.string content) => .string content
  | .literal (.array elements) => .array (elements.map view)
  | .literal (.object entries) =>
      .object (entries.map fun entry => (entry.1.text, view entry.2))
  | .identifier name => .identifier name
  | .this => .this
  | .new type arguments => .new type.shape (arguments.map view)
  | .call callee types arguments =>
      .call (view callee) (types.map TypeExpr.shape) (arguments.map view)
  | .member object property => .member (view object) property.text
  | .index object position => .index (view object) (view position)
  | .binary operator left right => .binary operator (view left) (view right)
  | .unary operator operand => .unary operator (view operand)
  | .assign operator target value =>
      .assign operator (view target) (view value)
  | .conditional condition whenTrue whenFalse =>
      .conditional (view condition) (view whenTrue) (view whenFalse)
  | .cast operand type => .cast (view operand) type.shape
  | .paren inner => .paren (view inner)

/-- The tree of a statement whose parts have given trees. -/
def Stmt.treeWith (view : ExprId → ExprTree) (viewStmt : StmtId → StmtTree) :
    Stmt → StmtTree
  | .block inner => .block (inner.statements.map viewStmt)
  | .expression value => .expression (view value)
  | .binding kind name type value =>
      .binding kind name.text (type.map TypeExpr.shape) (value.map view)
  | .branch condition whenTrue whenFalse =>
      .branch (view condition) (viewStmt whenTrue) (whenFalse.map viewStmt)
  | .loop condition body => .loop (view condition) (viewStmt body)
  | .return value => .return (value.map view)
  | .throw value => .throw (view value)
  | .empty => .empty

theorem Expr.treeWith_congr {node : Expr} {left right : ExprId → ExprTree}
    (same : ∀ child ∈ node.children, left child = right child) :
    node.treeWith left = node.treeWith right := by
  cases node with
  | literal literal =>
      cases literal with
      | array elements => simpa [treeWith, children] using same
      | object entries =>
          refine congrArg ExprTree.object (List.map_congr_left ?_)
          intro entry member
          rw [same entry.2 (List.mem_map_of_mem member)]
      | _ => rfl
  | new type arguments => simpa [treeWith, children] using same
  | call callee types arguments => simpa [treeWith, children] using same
  | _ => simp_all [treeWith, children]

theorem Stmt.treeWith_congr {node : Stmt} {left right : ExprId → ExprTree}
    {leftStmt rightStmt : StmtId → StmtTree}
    (same : ∀ id, Point.expr id ∈ node.points → left id = right id)
    (sameStmt : ∀ id, Point.stmt id ∈ node.points →
      leftStmt id = rightStmt id) :
    node.treeWith left leftStmt = node.treeWith right rightStmt := by
  cases node with
  | binding kind name type value =>
      cases value <;> simp_all [treeWith, points, optionalPoints]
  | branch condition whenTrue whenFalse =>
      cases whenFalse <;> simp_all [treeWith, points]
  | «return» value =>
      cases value <;> simp_all [treeWith, points, optionalPoints]
  | _ => simp_all [treeWith, points, Block.points]

namespace Arena

variable {arena smaller larger : Arena}

theorem exprTreeAt_succ (bound : Nat) (id : ExprId) :
    arena.exprTreeAt (bound + 1) id =
      (arena.expr id).node.treeWith (arena.exprTreeAt bound) := by
  rw [exprTreeAt]
  generalize (arena.expr id).node = node
  cases node with
  | literal literal => cases literal <;> rfl
  | _ => rfl

theorem stmtTreeAt_succ (bound : Nat) (id : StmtId) :
    arena.stmtTreeAt (bound + 1) id =
      (arena.stmt id).node.treeWith arena.exprTree
        (arena.stmtTreeAt bound) := by
  rw [stmtTreeAt]
  generalize (arena.stmt id).node = node
  cases node <;> rfl

/-- An expression that is not stored has no children. -/
theorem has_of_child {id child : ExprId}
    (member : child ∈ (arena.expr id).node.children) :
    arena.Has (.expr id) := by
  by_cases stored : arena.Has (.expr id)
  · exact stored
  · have outside : arena.exprs.size ≤ id.index := Nat.not_lt.mp stored
    have absent : arena.expr id = default := by
      simp [Arena.expr, Array.getD_eq_getD_getElem?, outside]
    rw [absent] at member
    cases member

theorem Closed.child_lt (closed : arena.Closed) {id child : ExprId}
    (stored : arena.Has (.expr id))
    (member : child ∈ (arena.expr id).node.children) :
    child.index < id.index := by
  have found := Array.getElem?_eq_getElem stored
  have same : arena.expr id = arena.exprs[id.index] := by
    simp [Arena.expr, Array.getD_eq_getD_getElem?, found]
  rw [same] at member
  exact closed.exprs found child member

theorem Closed.substatement_lt (closed : arena.Closed) {id child : StmtId}
    (stored : arena.Has (.stmt id))
    (member : Point.stmt child ∈ (arena.stmt id).node.points) :
    child.index < id.index := by
  have found := Array.getElem?_eq_getElem stored
  have same : arena.stmt id = arena.stmts[id.index] := by
    simp [Arena.stmt, Array.getD_eq_getD_getElem?, found]
  rw [same] at member
  exact closed.stmts found _ member

/-- Children come before their parents, so the number of an expression bounds
the height of its tree. -/
theorem Closed.exprTreeAt_eq (closed : arena.Closed) {bound : Nat}
    {id : ExprId} (stored : arena.Has (.expr id)) (high : id.index < bound) :
    arena.exprTreeAt bound id = arena.exprTree id := by
  obtain ⟨index, same⟩ : ∃ index, id.index = index := ⟨_, rfl⟩
  induction index using Nat.strongRecOn generalizing id bound with
  | ind index inductionHypothesis =>
      obtain ⟨bound, rfl⟩ := Nat.exists_eq_succ_of_ne_zero
        (Nat.ne_zero_of_lt high)
      rw [exprTree, exprTreeAt_succ, exprTreeAt_succ]
      refine Expr.treeWith_congr fun child member => ?_
      have before := closed.child_lt stored member
      have has : arena.Has (.expr child) := Nat.lt_trans before stored
      rw [inductionHypothesis child.index (by omega) has (by omega) rfl,
        inductionHypothesis child.index (by omega) has (by omega) rfl]

theorem Closed.stmtTreeAt_eq (closed : arena.Closed) {bound : Nat}
    {id : StmtId} (stored : arena.Has (.stmt id)) (high : id.index < bound) :
    arena.stmtTreeAt bound id = arena.stmtTree id := by
  obtain ⟨index, same⟩ : ∃ index, id.index = index := ⟨_, rfl⟩
  induction index using Nat.strongRecOn generalizing id bound with
  | ind index inductionHypothesis =>
      obtain ⟨bound, rfl⟩ := Nat.exists_eq_succ_of_ne_zero
        (Nat.ne_zero_of_lt high)
      rw [stmtTree, stmtTreeAt_succ, stmtTreeAt_succ]
      refine Stmt.treeWith_congr (fun _ _ => rfl) fun child member => ?_
      have before := closed.substatement_lt stored member
      have has : arena.Has (.stmt child) := Nat.lt_trans before stored
      rw [inductionHypothesis child.index (by omega) has (by omega) rfl,
        inductionHypothesis child.index (by omega) has (by omega) rfl]

theorem Closed.exprTree_eq (closed : arena.Closed) (id : ExprId) :
    arena.exprTree id = (arena.expr id).node.treeWith arena.exprTree := by
  rw [exprTree, exprTreeAt_succ]
  refine Expr.treeWith_congr fun child member => ?_
  have stored := has_of_child member
  have before := closed.child_lt stored member
  exact closed.exprTreeAt_eq (Nat.lt_trans before stored) before

theorem Closed.stmtTree_eq (closed : arena.Closed) {id : StmtId}
    (stored : arena.Has (.stmt id)) :
    arena.stmtTree id =
      (arena.stmt id).node.treeWith arena.exprTree arena.stmtTree := by
  rw [stmtTree, stmtTreeAt_succ]
  refine Stmt.treeWith_congr (fun _ _ => rfl) fun child member => ?_
  have before := closed.substatement_lt stored member
  exact closed.stmtTreeAt_eq (Nat.lt_trans before stored) before

theorem Extends.stmtTree_eq (extended : smaller.Extends larger)
    (closed : smaller.Closed) {id : StmtId}
    (stored : smaller.Has (.stmt id)) :
    larger.stmtTree id = smaller.stmtTree id := by
  unfold stmtTree
  generalize id.index + 1 = bound
  induction bound generalizing id with
  | zero => rfl
  | succ bound inductionHypothesis =>
      rw [stmtTreeAt_succ, stmtTreeAt_succ, extended.stmt_eq stored]
      refine Stmt.treeWith_congr (fun child member => ?_) fun child member => ?_
      · exact extended.exprTree_eq closed (closed.has_point stored member)
      · exact inductionHypothesis (closed.has_point stored member)

end Arena

/-! ## Depictions -/

/-- Something that refers to points of an arena and stands for a tree. -/
class Depicted (Node : Type) (Tree : outParam Type) where
  points : Node → List Point
  tree : Arena → Node → Tree
  /-- The tree is the same in a larger arena. -/
  tree_eq : ∀ {smaller larger : Arena}, smaller.Extends larger →
    smaller.Closed → ∀ {node : Node},
      (∀ point ∈ points node, smaller.Has point) →
        tree larger node = tree smaller node

instance : Depicted ExprId ExprTree where
  points id := [.expr id]
  tree := Arena.exprTree
  tree_eq extended closed _ stored :=
    extended.exprTree_eq closed (stored _ (List.mem_singleton_self _))

instance : Depicted StmtId StmtTree where
  points id := [.stmt id]
  tree := Arena.stmtTree
  tree_eq extended closed _ stored :=
    extended.stmtTree_eq closed (stored _ (List.mem_singleton_self _))

section

variable {Node Tree : Type} [Depicted Node Tree]

instance : Depicted (List Node) (List Tree) where
  points nodes := nodes.flatMap Depicted.points
  tree arena nodes := nodes.map (Depicted.tree arena)
  tree_eq extended closed _ stored :=
    List.map_congr_left fun node member =>
      Depicted.tree_eq extended closed fun point inNode =>
        stored point (List.mem_flatMap.mpr ⟨node, member, inNode⟩)

instance : Depicted (Option Node) (Option Tree) where
  points node := node.toList.flatMap Depicted.points
  tree arena node := node.map (Depicted.tree arena)
  tree_eq extended closed node stored := by
    cases node with
    | none => rfl
    | some node =>
        have same := Depicted.tree_eq extended closed fun point inNode =>
          stored point (by simpa using inNode)
        simp [same]

end

/-- An entry of an object. -/
instance : Depicted (Name × ExprId) (String × ExprTree) where
  points entry := [.expr entry.2]
  tree arena entry := (entry.1.text, arena.exprTree entry.2)
  tree_eq extended closed entry stored := by
    rw [extended.exprTree_eq closed (stored _ (List.mem_singleton_self _))]

/-- A node that is not stored yet. -/
instance : Depicted Expr ExprTree where
  points node := node.children.map Point.expr
  tree arena node := node.treeWith arena.exprTree
  tree_eq extended closed _ stored :=
    Expr.treeWith_congr fun _ member =>
      extended.exprTree_eq closed
        (stored _ (List.mem_map_of_mem member))

instance : Depicted Stmt StmtTree where
  points := Stmt.points
  tree arena node := node.treeWith arena.exprTree arena.stmtTree
  tree_eq extended closed _ stored :=
    Stmt.treeWith_congr
      (fun _ member => extended.exprTree_eq closed (stored _ member))
      fun _ member => extended.stmtTree_eq closed (stored _ member)

instance : Depicted Block (List StmtTree) where
  points := Block.points
  tree arena block := block.statements.map arena.stmtTree
  tree_eq extended closed _ stored :=
    List.map_congr_left fun _ member =>
      extended.stmtTree_eq closed
        (stored _ (List.mem_map_of_mem member))

/-- An arena has what a node refers to and shows it as a tree. -/
structure Arena.Depicts {Node Tree : Type} [Depicted Node Tree]
    (arena : Arena) (node : Node) (tree : Tree) : Prop where
  stored : ∀ point ∈ Depicted.points node, arena.Has point
  shown : Depicted.tree arena node = tree

namespace Arena

variable {Node Tree : Type} [Depicted Node Tree]
  {arena smaller larger : Arena}

theorem Depicts.extends {node : Node} {tree : Tree}
    (depicts : smaller.Depicts node tree) (extended : smaller.Extends larger)
    (closed : smaller.Closed) : larger.Depicts node tree where
  stored point member := extended.has (depicts.stored point member)
  shown := by
    rw [Depicted.tree_eq extended closed depicts.stored, depicts.shown]

theorem Depicts.nil : arena.Depicts ([] : List Node) [] where
  stored := by simp [Depicted.points]
  shown := rfl

theorem Depicts.cons {node : Node} {nodes : List Node} {tree : Tree}
    {trees : List Tree} (first : arena.Depicts node tree)
    (others : arena.Depicts nodes trees) :
    arena.Depicts (node :: nodes) (tree :: trees) where
  stored point member := by
    rcases List.mem_append.mp member with inFirst | inOthers
    · exact first.stored point inFirst
    · exact others.stored point inOthers
  shown := by
    have head := first.shown
    have tail := others.shown
    subst head tail
    rfl

theorem Depicts.none : arena.Depicts (none : Option Node) none where
  stored := by simp [Depicted.points]
  shown := rfl

theorem Depicts.some {node : Node} {tree : Tree}
    (depicts : arena.Depicts node tree) :
    arena.Depicts (some node) (some tree) where
  stored point member := by
    have inNode : point ∈ [node].flatMap Depicted.points := member
    rw [List.flatMap_singleton] at inNode
    exact depicts.stored point inNode
  shown := congrArg Option.some depicts.shown

theorem Closed.depicts_addExpr (closed : arena.Closed) {node : Expr}
    {tree : ExprTree} (depicts : arena.Depicts node tree) (span : Span) :
    (arena.addExpr node span).2.Depicts (arena.addExpr node span).1 tree := by
  have children : ∀ child ∈ node.children, arena.Has (.expr child) :=
    fun child member => depicts.stored _ (List.mem_map_of_mem member)
  have largerClosed := closed.addExpr children span
  have has := arena.has_addExpr node span
  refine ⟨fun point member => List.mem_singleton.mp member ▸ has, ?_⟩
  have stored : ((arena.addExpr node span).2.expr
      (arena.addExpr node span).1).node = node := by
    simp [Arena.addExpr, Arena.expr, Array.getD_eq_getD_getElem?]
  have later := (depicts.extends (arena.extends_addExpr node span) closed).shown
  change (arena.addExpr node span).2.exprTree _ = tree
  rw [largerClosed.exprTree_eq, stored]
  exact later

theorem Closed.depicts_addStmt (closed : arena.Closed) {node : Stmt}
    {tree : StmtTree} (depicts : arena.Depicts node tree) (span : Span) :
    (arena.addStmt node span).2.Depicts (arena.addStmt node span).1 tree := by
  have largerClosed := closed.addStmt depicts.stored span
  have has := arena.has_addStmt node span
  refine ⟨fun point member => List.mem_singleton.mp member ▸ has, ?_⟩
  have stored : ((arena.addStmt node span).2.stmt
      (arena.addStmt node span).1).node = node := by
    simp [Arena.addStmt, Arena.stmt, Array.getD_eq_getD_getElem?]
  have later := (depicts.extends (arena.extends_addStmt node span) closed).shown
  change (arena.addStmt node span).2.stmtTree _ = tree
  rw [largerClosed.stmtTree_eq has, stored]
  exact later

end Arena

end PluginSurface
