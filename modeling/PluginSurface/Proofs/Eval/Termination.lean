import PluginSurface.Proofs.Eval.Congruence
import PluginSurface.Proofs.Eval.Quiet

/-!
# Evaluations end

The bound on the steps of an evaluation plays no part. The gas that is left
bounds how deep evaluation nests and how often a loop goes around, since every
level and every round uses some; the number of an expression bounds how far its
place lies. So each evaluation over a closed arena ends within the bound that
the gas provides, and a larger bound changes nothing.
-/

namespace PluginSurface

open Eval

variable {Result Next : Type}

namespace Eval

/-! ## Larger bounds -/

/-- Wherever `left` comes to an end `right` comes to the same one. -/
def Refines (left right : Eval Result) : Prop :=
  ∀ ⦃machine : Machine⦄ ⦃outcome : Outcome Result⦄,
    left machine = some outcome → right machine = some outcome

namespace Refines

theorem refl (computation : Eval Result) : Refines computation computation :=
  fun _ _ ran => ran

theorem outOfSteps (right : Eval Result) : Refines Eval.outOfSteps right :=
  nofun

theorem bind {left right : Eval Result}
    {leftNext rightNext : Result → Eval Next} (first : Refines left right)
    (second : ∀ result, Refines (leftNext result) (rightNext result)) :
    Refines (left >>= leftNext) (right >>= rightNext) := by
  intro machine outcome ran
  rcases bind_cases ran with ⟨fault, middle, step, rfl⟩ |
    ⟨result, middle, step, ran⟩
  · exact bind_of_error (first step) rightNext
  · rw [bind_of_ok (first step)]
    exact second result ran

theorem attempt {left right : Eval Result} (body : Refines left right) :
    Refines (Eval.attempt left) (Eval.attempt right) := by
  intro machine outcome ran
  unfold Eval.attempt at ran ⊢
  split at ran <;> cases ran
  all_goals
    rename_i step
    rw [body step]

theorem inScope {left right : Eval Result} (body : Refines left right) :
    Refines (Eval.inScope left) (Eval.inScope right) := by
  intro machine outcome ran
  unfold Eval.inScope at ran ⊢
  split at ran <;> cases ran
  rename_i step
  rw [body step]

theorem enter {left right : Eval (Value × Option Value)}
    (frame : Refines left right) :
    Refines (Interpreter.enter left) (Interpreter.enter right) := by
  refine (refl _).bind fun depth => ?_
  split
  · exact refl _
  · intro machine outcome ran
    unfold Eval.inCall at ran ⊢
    dsimp only at ran ⊢
    split at ran <;> cases ran
    rename_i step
    rw [frame step]

theorem repeatWhile {leftCondition rightCondition : Eval Value}
    {leftBody rightBody : Eval Flow}
    (conditions : Refines leftCondition rightCondition)
    (bodies : Refines leftBody rightBody) (bound : Nat) :
    Refines (Eval.repeatWhile leftCondition leftBody bound)
      (Eval.repeatWhile rightCondition rightBody bound) := by
  induction bound with
  | zero => exact outOfSteps _
  | succ bound inductionHypothesis =>
      rw [repeatWhile_succ, repeatWhile_succ]
      refine conditions.bind fun value => ?_
      split
      · refine bodies.bind fun flow => ?_
        cases flow with
        | normal => exact inductionHypothesis
        | «return» value => exact refl _
      · exact refl _

end Refines

theorem congruence_refines :
    Congruence (fun _ => Refines) (fun _ => Refines) where
  pure _ := .refl _
  ofExcept _ := .refl _
  variableValue _ := .refl _
  binding _ := .refl _
  load _ := .refl _
  store _ _ := .refl _
  define _ _ := .refl _
  bind := .bind
  bindDefining := .bind
  weaken refines := refines
  inScope := .inScope

end Eval

namespace Interpreter

theorem refines_invoke {left right : Interpreter}
    (parts : PartsRelated (fun _ => Refines) (fun _ => Refines) left right)
    (function : FunctionDecl) (receiver : Option Value)
    (arguments : List (Option Value)) :
    Refines (invoke left function receiver arguments)
      (invoke right function receiver arguments) := by
  rw [invoke_eq_invokeBy, invoke_eq_invokeBy]
  exact parts.invokeBy congruence_refines congruence_refines enter enter .enter
    function receiver arguments

/-- A larger bound changes nothing once evaluation comes to an end. -/
theorem refines_interpreter (program : Program) {leftBound rightBound : Nat}
    (longer : leftBound ≤ rightBound) :
    PartsRelated (fun _ => Refines) (fun _ => Refines)
      (interpreter program leftBound) (interpreter program rightBound) := by
  induction leftBound generalizing rightBound with
  | zero => exact ⟨fun _ => .outOfSteps _, fun _ => .outOfSteps _⟩
  | succ leftBound inductionHypothesis =>
      obtain ⟨rightBound, rfl⟩ := Nat.exists_eq_add_of_lt longer
      have parts := inductionHypothesis (Nat.le_add_right leftBound rightBound)
      have place (id : ExprId) :
          Refines (place program (interpreter program leftBound) id)
            (place program (interpreter program (leftBound + rightBound))
              id) :=
        parts.placeAt congruence_refines program (.inl (.outOfSteps _))
      have steps : StepsRelated program (fun _ => Refines)
          (fun _ => Refines) _ _ (invoke (interpreter program leftBound))
          (invoke (interpreter program (leftBound + rightBound))) :=
        { parts with
          call := refines_invoke parts
          place := place
          settle := fun object _ => (place object).attempt
          loop := fun condition body => (Refines.refl _).bind fun rounds =>
            (parts.expr condition).repeatWhile (parts.stmt body) rounds }
      rw [interpreter_succ, interpreter_succ]
      exact steps.parts congruence_refines (.refl _)

end Interpreter

/-! ## Enough steps -/

namespace Eval

/-- Where a computation does not come to an end, there is at least as much gas
left as the bound. -/
structure Ends (bound : Nat) (computation : Eval Result) : Prop where
  metered : Metered computation
  left : ∀ ⦃machine : Machine⦄, computation machine = none →
    bound ≤ machine.gasLimit - machine.gas

/-- A computation only gives a result after it has used gas that was left. -/
def UsesGas (computation : Eval Result) : Prop :=
  ∀ ⦃machine : Machine⦄ ⦃result : Result⦄ ⦃after : Machine⦄,
    computation machine = some (.ok result, after) →
      machine.gas < machine.gasLimit ∧ machine.gas < after.gas

theorem usesGas_tick_bind {rest : Eval Result} (metered : Metered rest) :
    UsesGas (tick >>= fun _ => rest) := by
  intro machine result after ran
  by_cases exceeds : machine.gasLimit < machine.gas + 1
  · rw [tick_bind_of_over exceeds] at ran
    cases ran
  · rw [tick_bind_of_fits exceeds] at ran
    have rose : machine.gas + 1 ≤ after.gas := (metered ran).1
    omega

namespace Ends

variable {bound : Nat}

theorem pure (result : Result) : Ends bound (Pure.pure result) :=
  ⟨.pure result, nofun⟩

theorem ofExcept (outcome : Except Fault Result) :
    Ends bound (Eval.ofExcept outcome) :=
  ⟨.ofExcept outcome, nofun⟩

theorem inspect (view : Machine → Result) : Ends bound (Eval.inspect view) :=
  ⟨.inspect view, nofun⟩

theorem variableValue (name : String) :
    Ends bound (Eval.variableValue name) := by
  refine ⟨.variableValue name, ?_⟩
  intro machine stuck
  unfold Eval.variableValue at stuck
  split at stuck <;> cases stuck

theorem store (place : Place) (value : Value) :
    Ends bound (Eval.store place value) := by
  refine ⟨.store place value, ?_⟩
  intro machine stuck
  unfold Eval.store at stuck
  dsimp only at stuck
  split at stuck <;> cases stuck

theorem bind {first : Eval Result} {next : Result → Eval Next}
    (before : Ends bound first) (after : ∀ result, Ends bound (next result)) :
    Ends bound (first >>= next) := by
  refine ⟨before.metered.bind fun result => (after result).metered, ?_⟩
  intro machine stuck
  change andThen first next machine = none at stuck
  unfold andThen at stuck
  rcases step : first machine with _ | ⟨fault | result, middle⟩ <;>
    rw [step] at stuck
  · exact before.left step
  · cases stuck
  · -- The gas that is left does not grow.
    have rose : machine.gas ≤ middle.gas := (before.metered step).1
    have kept : middle.gasLimit = machine.gasLimit := (before.metered step).2
    have remains := (after result).left stuck
    omega

/-- Using gas allows for one more level. -/
theorem tick_bind {rest : Eval Result} (ends : Ends bound rest) :
    Ends (bound + 1) (Eval.tick >>= fun _ => rest) := by
  refine ⟨Metered.tick.bind fun _ => ends.metered, ?_⟩
  intro machine stuck
  by_cases exceeds : machine.gasLimit < machine.gas + 1
  · rw [tick_bind_of_over exceeds] at stuck
    cases stuck
  · rw [tick_bind_of_fits exceeds] at stuck
    have remains : bound ≤ machine.gasLimit - (machine.gas + 1) :=
      ends.left stuck
    omega

theorem attempt {body : Eval Result} (ends : Ends bound body) :
    Ends bound (Eval.attempt body) := by
  refine ⟨ends.metered.attempt, ?_⟩
  intro machine stuck
  unfold Eval.attempt at stuck
  split at stuck
  · rename_i step
    exact ends.left step
  · cases stuck
  · cases stuck

theorem inScope {body : Eval Result} (ends : Ends bound body) :
    Ends bound (Eval.inScope body) := by
  refine ⟨ends.metered.inScope, ?_⟩
  intro machine stuck
  unfold Eval.inScope at stuck
  split at stuck
  · rename_i step
    have remains := ends.left step
    exact remains
  · cases stuck

theorem inCall {body : Eval Result} (ends : Ends bound body) :
    Ends bound (Eval.inCall body) := by
  refine ⟨ends.metered.inCall, ?_⟩
  intro machine stuck
  unfold Eval.inCall at stuck
  dsimp only at stuck
  split at stuck
  · rename_i step
    have remains := ends.left step
    exact remains
  · cases stuck

theorem enter {frame : Eval (Value × Option Value)}
    (ends : Ends bound frame) : Ends bound (Interpreter.enter frame) := by
  apply (inspect Machine.depth).bind
  intro depth
  split
  · exact ofExcept (.error _)
  · exact ends.inCall

/-- Every round uses gas, so there is no gas left for more rounds than the
machine provides for. -/
theorem repeatWhile {condition : Eval Value} {body : Eval Flow}
    (uses : UsesGas condition) (tested : Ends bound condition)
    (repeated : Ends bound body) (rounds : Nat) {machine : Machine}
    (enough : machine.gasLimit - machine.gas < rounds)
    (stuck : Eval.repeatWhile condition body rounds machine = none) :
    bound ≤ machine.gasLimit - machine.gas := by
  induction rounds generalizing machine with
  | zero => exact (Nat.not_lt_zero _ enough).elim
  | succ rounds inductionHypothesis =>
      unfold Eval.repeatWhile at stuck
      split at stuck
      · rename_i step
        exact tested.left step
      · cases stuck
      · rename_i value middle step
        have used := uses step
        have kept : middle.gasLimit = machine.gasLimit :=
          (tested.metered step).2
        split at stuck
        · split at stuck
          · rename_i again
            have remains := repeated.left again
            omega
          · cases stuck
          · cases stuck
          · rename_i after again
            have rose : middle.gas ≤ after.gas := (repeated.metered again).1
            have keptAgain : after.gasLimit = middle.gasLimit :=
              (repeated.metered again).2
            have remains := inductionHypothesis (by omega) stuck
            omega
        · cases stuck

theorem loop {condition : Eval Value} {body : Eval Flow}
    (uses : UsesGas condition) (tested : Ends bound condition)
    (repeated : Ends bound body) :
    Ends bound
      (Eval.inspect Machine.stepBound >>= Eval.repeatWhile condition body) := by
  refine ⟨(Metered.inspect _).bind
    (tested.metered.repeatWhile repeated.metered), ?_⟩
  intro machine stuck
  have enough : machine.gasLimit - machine.gas < machine.stepBound := by
    unfold Machine.stepBound
    omega
  exact repeatWhile uses tested repeated _ enough stuck

end Ends

theorem congruence_ends (bound : Nat) :
    Congruence (fun _ left _ => Ends bound left)
      (fun _ left _ => Ends bound left) where
  pure := .pure
  ofExcept _ := .ofExcept _
  variableValue := .variableValue
  binding _ := .inspect _
  load place := ⟨.load place, nofun⟩
  store := .store
  define _ _ := ⟨.updateEnvironment _, nofun⟩
  bind := .bind
  bindDefining := .bind
  weaken ends := ends
  inScope := .inScope

end Eval

namespace Interpreter

/-- The parts of a program come to an end with less gas than the bound. -/
abbrev PartsEnd (bound : Nat) (run : Interpreter) : Prop :=
  PartsRelated (fun _ left _ => Ends bound left)
    (fun _ left _ => Ends bound left) run run

theorem PartsEnd.invoke {bound : Nat} {run : Interpreter}
    (parts : PartsEnd bound run) (function : FunctionDecl)
    (receiver : Option Value) (arguments : List (Option Value)) :
    Ends bound (invoke run function receiver arguments) := by
  rw [invoke_eq_invokeBy]
  exact parts.invokeBy (congruence_ends bound) (congruence_ends bound) enter
    enter .enter function receiver arguments

/-- Evaluation comes to an end with less gas than its bound. That expressions
use gas is what ends the loops. -/
theorem partsEnd_interpreter {program : Program}
    (closed : program.arena.Closed) (bound : Nat) :
    PartsEnd bound (interpreter program bound) ∧
      ∀ id, UsesGas ((interpreter program bound).expr id) := by
  induction bound with
  | zero =>
      refine ⟨⟨?_, ?_⟩, fun _ => nofun⟩
      · exact fun _ => ⟨.outOfSteps, fun _ _ => Nat.zero_le _⟩
      · exact fun _ => ⟨.outOfSteps, fun _ _ => Nat.zero_le _⟩
  | succ bound inductionHypothesis =>
      obtain ⟨parts, uses⟩ := inductionHypothesis
      have place (id : ExprId) :
          Ends bound (place program (interpreter program bound) id) :=
        parts.placeAt (congruence_ends bound) program
          (.inr ⟨closed, Nat.lt_succ_self _⟩)
      have steps : StepsRelated program (fun _ left _ => Ends bound left)
          (fun _ left _ => Ends bound left) (interpreter program bound)
          (interpreter program bound) (invoke (interpreter program bound))
          (invoke (interpreter program bound)) :=
        { parts with
          call := PartsEnd.invoke parts
          place := place
          settle := fun object _ => (place object).attempt
          loop := fun condition body =>
            .loop (uses condition) (parts.expr condition) (parts.stmt body) }
      have exprs := steps.exprBody (congruence_ends bound)
      have stmts := steps.stmtBody (congruence_ends bound)
      rw [interpreter_succ]
      refine ⟨⟨?_, ?_⟩, ?_⟩
      · exact fun id => (exprs id).tick_bind
      · exact fun id => (stmts id).tick_bind
      · exact fun id => usesGas_tick_bind (exprs id).metered

end Interpreter

/-! ## Whole evaluations -/

/-- From the bound that the gas provides on, every bound gives the outcome. -/
theorem Machine.run_of_ends {machine : Machine} {bounded : Nat → Eval Result}
    (ends : ∀ bound, Ends bound (bounded bound))
    (refines : ∀ {left right}, left ≤ right →
      Refines (bounded left) (bounded right)) {bound : Nat}
    (enough : machine.stepBound ≤ bound) :
    bounded bound machine = some (machine.run bounded) := by
  cases ran : bounded machine.stepBound machine with
  | none =>
      have remains := (ends machine.stepBound).left ran
      unfold Machine.stepBound at remains
      omega
  | some outcome =>
      unfold Machine.run
      rw [ran]
      exact refines enough ran

end PluginSurface
