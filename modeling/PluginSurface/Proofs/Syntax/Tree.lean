import PluginSurface.Proofs.Syntax.Closure
import PluginSurface.Syntax.Tree

/-!
# Trees in a growing arena

The tree below a stored expression does not change when nodes are added.
-/

namespace PluginSurface.Arena

variable {smaller larger : Arena}

theorem Extends.exprTreeAt_eq (extended : smaller.Extends larger)
    (closed : smaller.Closed) (bound : Nat) {id : ExprId}
    (stored : smaller.Has (.expr id)) :
    larger.exprTreeAt bound id = smaller.exprTreeAt bound id := by
  induction bound generalizing id with
  | zero => rfl
  | succ bound inductionHypothesis =>
      unfold exprTreeAt
      dsimp only
      rw [extended.expr_eq stored]
      have parts : ∀ child ∈ (smaller.expr id).node.children,
          larger.exprTreeAt bound child = smaller.exprTreeAt bound child :=
        fun child member =>
          inductionHypothesis (closed.has_child stored member)
      generalize (smaller.expr id).node = node at parts
      cases node with
      | literal literal =>
          cases literal with
          | array elements =>
              exact congrArg ExprTree.array (List.map_congr_left parts)
          | object entries =>
              refine congrArg ExprTree.object (List.map_congr_left ?_)
              intro entry member
              rw [parts entry.2 (List.mem_map_of_mem member)]
          | _ => rfl
      | new type arguments =>
          exact congrArg (ExprTree.new type.shape) (List.map_congr_left parts)
      | call callee types arguments =>
          have same := List.map_congr_left fun argument member =>
            parts argument (List.mem_cons_of_mem callee member)
          dsimp only
          rw [parts callee List.mem_cons_self, same]
      | _ => simp_all [Expr.children]

theorem Extends.exprTree_eq (extended : smaller.Extends larger)
    (closed : smaller.Closed) {id : ExprId}
    (stored : smaller.Has (.expr id)) :
    larger.exprTree id = smaller.exprTree id :=
  extended.exprTreeAt_eq closed _ stored

end PluginSurface.Arena
