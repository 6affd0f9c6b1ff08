import PluginSurface.Proofs.Optional.BitTests
import PluginSurface.Proofs.Optional.Masking

/-!
# Running the guards

The test of a guard uses gas and nothing else, and yields whether its bit of the
mask is clear. If it is not, the guard is over. If it is, the guard goes on to
compute the default and to store it in the parameter.
-/

namespace PluginSurface

open Environment Eval Interpreter

namespace Masking

variable {program : Program}

/-- The test of a position yields whether the mask leaves it unmarked. -/
theorem passes_unsuppliedTest {mask : UInt64} {id : ExprId} {index : Nat}
    (test : UnsuppliedTest program.arena index id) (small : index < 64)
    (bound : Nat) :
    PassesTo (HoldsMask mask) (evalExpr program bound id)
      (pure (.bool (!mask.toNat.testBit index))) :=
  (computes_unsuppliedTest mask test small bound).passesTo

/-! ## The assignment -/

section

variable {condition : Environment → Prop} {initializer : ExprId}
  {name : String}

theorem place_identifier {run : Interpreter} {assigned : ExprId}
    (target : program.arena.StoresExpr assigned (.identifier name)) :
    place program run assigned = pure ⟨name, []⟩ := by
  unfold Interpreter.place placeAt
  rw [target.2]

theorem passes_assign {id assigned : ExprId}
    (assign : program.arena.StoresExpr id (.assign none assigned initializer))
    (target : program.arena.StoresExpr assigned (.identifier name))
    (bound : Nat) :
    PassesTo condition (evalExpr program bound id) (do
      let value ← evalExpr program (bound - 1) initializer
      store ⟨name, []⟩ value
      return value) := by
  cases bound with
  | zero => exact .outOfSteps _
  | succ bound =>
      rw [evalExpr_succ]
      refine (PassesTo.tick _).trans ?_
      rw [assign.2]
      dsimp only
      unfold evalAssign
      rw [place_identifier target, Eval.pure_bind]
      exact .refl _

theorem passes_assignment {id : StmtId} {assignment assigned : ExprId}
    (statement : program.arena.StoresStmt id (.expression assignment))
    (assign : program.arena.StoresExpr assignment
      (.assign none assigned initializer))
    (target : program.arena.StoresExpr assigned (.identifier name))
    (bound : Nat) :
    PassesTo condition (execStmt program bound id) (do
      let value ← evalExpr program (bound - 2) initializer
      store ⟨name, []⟩ value
      return .normal) := by
  cases bound with
  | zero => exact .outOfSteps _
  | succ bound =>
      rw [execStmt_succ]
      refine (PassesTo.tick _).trans ?_
      rw [statement.2]
      change PassesTo condition ((evalExpr program bound assignment >>=
        fun _ => pure ()) >>= fun _ => pure Flow.normal) _
      have assigns : PassesTo condition (evalExpr program bound assignment) _ :=
        passes_assign assign target bound
      have passes := assigns.andThen fun _ => pure Flow.normal
      simp only [Eval.bind_assoc, Eval.pure_bind] at passes ⊢
      exact passes

end

/-! ## The guard -/

section

variable {mask : UInt64} {index : Nat} {name : String} {initializer : ExprId}
  {id : StmtId}

theorem passes_branch {condition : ExprId} {whenTrue : StmtId} {value : Value}
    {holds : Environment → Prop} {rest : Eval Flow}
    (node : program.arena.StoresStmt id (.branch condition whenTrue none))
    (test : ∀ bound, PassesTo holds (evalExpr program bound condition)
      (pure value))
    (bound : Nat)
    (passes : PassesTo holds
      (if value.isTruthy then execStmt program (bound - 1) whenTrue
        else pure .normal) rest) :
    PassesTo holds (execStmt program bound id) rest := by
  cases bound with
  | zero => exact .outOfSteps _
  | succ bound =>
      rw [execStmt_succ]
      refine (PassesTo.tick _).trans ?_
      rw [node.2]
      exact .bind (test bound) passes

/-- The guard of a supplied parameter does nothing. -/
theorem passes_guard_of_marked
    (guard : GuardStatement program.arena index name initializer id)
    (small : index < 64) (marked : mask.toNat.testBit index = true)
    (bound : Nat) :
    PassesTo (HoldsMask mask) (execStmt program bound id) (pure .normal) := by
  obtain ⟨test, target, assign, statement, node⟩ := guard
  refine passes_branch node (passes_unsuppliedTest test small) bound ?_
  rw [marked]
  exact .refl _

/-- The guard of another parameter stores its default. -/
theorem passes_guard_of_unmarked
    (guard : GuardStatement program.arena index name initializer id)
    (small : index < 64) (unmarked : mask.toNat.testBit index = false)
    (bound : Nat) :
    PassesTo (HoldsMask mask) (execStmt program bound id) (do
      let value ← evalExpr program (bound - 1 - 2) initializer
      store ⟨name, []⟩ value
      return .normal) := by
  obtain ⟨test, target, assign, statement, node⟩ := guard
  refine passes_branch node (passes_unsuppliedTest test small) bound ?_
  rw [unmarked]
  exact passes_assignment statement assign target (bound - 1)

theorem passes_execAll_of_marked
    (guard : GuardStatement program.arena index name initializer id)
    (small : index < 64) (marked : mask.toNat.testBit index = true)
    (rest : List StmtId) (bound : Nat) :
    PassesTo (HoldsMask mask) (execAll (interpreter program bound) (id :: rest))
      (execAll (interpreter program bound) rest) :=
  .bind (passes_guard_of_marked guard small marked bound) (.refl _)

theorem passes_execAll_of_unmarked
    (guard : GuardStatement program.arena index name initializer id)
    (small : index < 64) (unmarked : mask.toNat.testBit index = false)
    (rest : List StmtId) (bound : Nat) :
    PassesTo (HoldsMask mask) (execAll (interpreter program bound) (id :: rest))
      (do
        let value ← evalExpr program (bound - 1 - 2) initializer
        store ⟨name, []⟩ value
        execAll (interpreter program bound) rest) := by
  have passes : PassesTo (HoldsMask mask)
      (execAll (interpreter program bound) (id :: rest)) _ :=
    (passes_guard_of_unmarked guard small unmarked bound).andThen _
  simp only [Eval.bind_assoc, Eval.pure_bind] at passes
  exact passes

end

end Masking

end PluginSurface
