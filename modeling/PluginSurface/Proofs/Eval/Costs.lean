import PluginSurface.Proofs.Dict
import PluginSurface.Proofs.Eval.Congruence
import PluginSurface.Proofs.Eval.Quiet

/-!
# What a value costs

Some expressions come to the same value in every environment that meets a
condition and change nothing but the gas. What they take of it is the same
everywhere too, so each of them has a cost. The cost also bounds how deep the
evaluation nests, since every level takes some gas.
-/

namespace PluginSurface

open Eval Interpreter

/-- The machine after some gas was used. -/
def Machine.charged (machine : Machine) (cost : Nat) : Machine :=
  { machine with gas := machine.gas + cost }

theorem Machine.charged_charged (machine : Machine) (first second : Nat) :
    (machine.charged first).charged second =
      machine.charged (first + second) := by
  simp only [charged, Nat.add_assoc]

namespace Eval

variable {Result Next : Type}

theorem eq_charged_of_tick {machine after : Machine} {done : Unit}
    (ran : tick machine = some (.ok done, after)) :
    after = machine.charged 1 := by
  simp only [tick] at ran
  split at ran <;> cases ran
  rfl

/-- Over the environments that meet a condition, a computation with a bound on
its depth uses the gas that it costs and then goes on as another one. It may run
out of steps instead if its bound is below its cost. -/
def Costs (condition : Environment → Prop) (cost bound : Nat)
    (computation rest : Eval Result) : Prop :=
  ∃ steps enough, (cost ≤ bound → steps = cost ∧ enough = true) ∧
    Takes condition steps enough computation rest

/-- Whoever has the gas can use it. -/
theorem spend_bind_of_fits (rest : Eval Result) {cost : Nat}
    {machine : Machine} (fits : machine.gas + cost ≤ machine.gasLimit) :
    (spend cost >>= fun _ => rest) machine = rest (machine.charged cost) := by
  induction cost generalizing machine with
  | zero => rfl
  | succ cost inductionHypothesis =>
      have fitsFirst : ¬ machine.gasLimit < machine.gas + 1 := by omega
      have fitsRest : (machine.charged 1).gas + cost ≤
          (machine.charged 1).gasLimit := by
        simp only [Machine.charged]
        omega
      have spent := inductionHypothesis fitsRest
      rw [Machine.charged_charged, Nat.add_comm 1 cost] at spent
      rw [spend_succ_bind, tick_bind_of_fits fitsFirst]
      exact spent

namespace Costs

variable {condition : Environment → Prop} {cost further bound : Nat}

theorem passesTo {computation rest : Eval Result}
    (costs : Costs condition cost bound computation rest) :
    PassesTo condition computation rest := by
  obtain ⟨steps, enough, -, takes⟩ := costs
  exact ⟨steps, enough, takes⟩

/-- With enough gas and a bound to match, a computation ends with its result. -/
theorem runs {computation : Eval Result} {result : Result}
    (costs : Costs condition cost bound computation (Pure.pure result))
    (within : cost ≤ bound) {machine : Machine}
    (holds : condition machine.environment)
    (fits : machine.gas + cost ≤ machine.gasLimit) :
    computation machine = some (.ok result, machine.charged cost) := by
  obtain ⟨steps, enough, precise, takes⟩ := costs
  obtain ⟨rfl, rfl⟩ := precise within
  rw [takes machine holds]
  exact spend_bind_of_fits (Pure.pure result) fits

theorem refl (computation : Eval Result) :
    Costs condition 0 bound computation computation :=
  ⟨0, true, fun _ => ⟨rfl, rfl⟩, .refl computation⟩

theorem outOfSteps (rest : Eval Result) (short : bound < cost) :
    Costs condition cost bound Eval.outOfSteps rest :=
  ⟨0, false, fun within => absurd short (Nat.not_lt.mpr within),
    .outOfSteps rest⟩

theorem variableValue {name : String} {value : Value}
    (found : ∀ environment, condition environment →
      environment.find? name = some value) :
    Costs condition 0 bound (Eval.variableValue name) (Pure.pure value) := by
  refine ⟨0, true, fun _ => ⟨rfl, rfl⟩, fun machine holds => ?_⟩
  have known := found machine.environment holds
  simp only [Eval.variableValue, known]
  rfl

/-- Two computations, each with a bound of its own, one after the other. -/
theorem transWithin {firstBound secondBound : Nat}
    {first second third : Eval Result}
    (costs : Costs condition cost firstBound first second)
    (costsMore : Costs condition further secondBound second third)
    (within : cost + further ≤ bound →
      cost ≤ firstBound ∧ further ≤ secondBound) :
    Costs condition (cost + further) bound first third := by
  obtain ⟨steps, enough, precise, takes⟩ := costs
  obtain ⟨moreSteps, moreEnough, preciseMore, takesMore⟩ := costsMore
  cases enough with
  | true =>
      refine ⟨steps + moreSteps, moreEnough, fun fits => ?_,
        takes.trans takesMore⟩
      obtain ⟨fitsFirst, fitsSecond⟩ := within fits
      obtain ⟨rfl, -⟩ := precise fitsFirst
      obtain ⟨rfl, isEnough⟩ := preciseMore fitsSecond
      exact ⟨rfl, isEnough⟩
  | false =>
      refine ⟨steps, false, fun fits => ?_, takes.stopped⟩
      cases (precise (within fits).1).2

theorem andThen {first rest : Eval Result}
    (costs : Costs condition cost bound first rest)
    (next : Result → Eval Next) :
    Costs condition cost bound (first >>= next) (rest >>= next) := by
  obtain ⟨steps, enough, precise, takes⟩ := costs
  exact ⟨steps, enough, precise, takes.andThen next⟩

theorem bind {first : Eval Result} {next : Result → Eval Next}
    {result : Result} {rest : Eval Next}
    (before : Costs condition cost bound first (Pure.pure result))
    (after : Costs condition further bound (next result) rest) :
    Costs condition (cost + further) bound (first >>= next) rest :=
  (before.andThen next).transWithin after fun fits =>
    ⟨Nat.le_trans (Nat.le_add_right _ _) fits,
      Nat.le_trans (Nat.le_add_left _ _) fits⟩

/-- What is done with a result in the end may be free. -/
theorem last {first : Eval Result} {next : Result → Eval Next}
    {result : Result} {rest : Eval Next}
    (before : Costs condition cost bound first (Pure.pure result))
    (after : Costs condition 0 bound (next result) rest) :
    Costs condition cost bound (first >>= next) rest :=
  before.bind after

/-- A level takes one unit of gas and one of the bound. -/
theorem level {computation rest : Eval Result}
    (costs : Costs condition cost bound computation rest) :
    Costs condition (1 + cost) (bound + 1) (tick >>= fun _ => computation)
      rest := by
  have ticks : Costs condition 1 1 (tick >>= fun _ => computation)
      computation :=
    ⟨1, true, fun _ => ⟨rfl, rfl⟩, .tick computation⟩
  exact ticks.transWithin costs fun fits => ⟨Nat.le_refl 1, by omega⟩

end Costs

end Eval

/-! ## Expressions -/

namespace Program

/-- Whatever the bound, an expression of a program costs some gas and comes to
a value. -/
def Computes (program : Program) (condition : Environment → Prop) (cost : Nat)
    (id : ExprId) (value : Value) : Prop :=
  ∀ bound, Costs condition cost bound ((interpreter program bound).expr id)
    (pure value)

variable {program : Program} {condition : Environment → Prop}
  {cost leftCost rightCost : Nat} {id : ExprId} {value : Value}

/-- The gas of the expression itself comes on top of what its node costs. -/
theorem computes_of_body
    (body : ∀ bound, Costs condition cost bound
      (exprBody program (interpreter program bound)
        (invoke (interpreter program bound)) id) (pure value)) :
    program.Computes condition (1 + cost) id value := by
  intro bound
  cases bound with
  | zero => exact .outOfSteps (pure value) (by omega)
  | succ bound =>
      rw [interpreter_succ]
      exact (body bound).level

/-- Evaluation provides a bound that is large enough. -/
theorem Computes.eval (computes : program.Computes condition cost id value)
    {machine : Machine} (holds : condition machine.environment)
    (enough : machine.gas + cost ≤ machine.gasLimit) :
    machine.eval program id = (.ok value, machine.charged cost) := by
  have within : cost ≤ machine.stepBound := by
    unfold Machine.stepBound
    omega
  have ran : evalExpr program machine.stepBound id machine =
      some (.ok value, machine.charged cost) :=
    (computes machine.stepBound).runs within holds enough
  simp only [Machine.eval, Machine.run, ran, Option.getD_some]

theorem computes_literal {literal : Literal}
    (node : (program.arena.expr id).node = .literal literal)
    (known : ∀ run, evalLiteral run literal = pure value) :
    program.Computes condition 1 id value := by
  refine @computes_of_body _ _ 0 _ _ fun bound => ?_
  simp only [exprBody, node, known]
  exact .refl (pure value)

theorem computes_identifier {name : String}
    (node : (program.arena.expr id).node = .identifier name)
    (found : ∀ environment, condition environment →
      environment.find? name = some value) :
    program.Computes condition 1 id value := by
  refine @computes_of_body _ _ 0 _ _ fun bound => ?_
  simp only [exprBody, node]
  exact .variableValue found

theorem Computes.paren {inner : ExprId}
    (computes : program.Computes condition cost inner value)
    (node : (program.arena.expr id).node = .paren inner) :
    program.Computes condition (1 + cost) id value := by
  refine computes_of_body fun bound => ?_
  simp only [exprBody, node]
  exact computes bound

theorem Computes.unary {operator : UnaryOperator} {operand : ExprId}
    {operandValue : Value}
    (computes : program.Computes condition cost operand operandValue)
    (node : (program.arena.expr id).node = .unary operator operand)
    (result : Value.unary operator operandValue = .ok value) :
    program.Computes condition (1 + cost) id value := by
  refine computes_of_body fun bound => ?_
  simp only [exprBody, node]
  refine (computes bound).last ?_
  rw [result]
  exact .refl (pure value)

/-- An operator that evaluates both operands costs what they cost. -/
theorem Computes.binary {operator : BinaryOperator} {left right : ExprId}
    {leftValue rightValue : Value}
    (first : program.Computes condition leftCost left leftValue)
    (second : program.Computes condition rightCost right rightValue)
    (node : (program.arena.expr id).node = .binary operator left right)
    (strict : operator ≠ .and ∧ operator ≠ .or)
    (result : Value.binary operator leftValue rightValue = .ok value) :
    program.Computes condition (1 + (leftCost + rightCost)) id value := by
  refine computes_of_body fun bound => ?_
  simp only [exprBody, node]
  refine (first bound).bind ?_
  split
  · exact (strict.1 rfl).elim
  · exact (strict.2 rfl).elim
  · refine (second bound).last ?_
    rw [result]
    exact .refl (pure value)

/-! ## Arrays and objects -/

/-- At some cost, an expression of a program comes to a value. -/
def HasValue (program : Program) (condition : Environment → Prop)
    (id : ExprId) (value : Value) : Prop :=
  ∃ cost, program.Computes condition cost id value

theorem Computes.hasValue
    (computes : program.Computes condition cost id value) :
    program.HasValue condition id value :=
  ⟨cost, computes⟩

theorem exists_costs_evalAll {ids : List ExprId} {values : List Value}
    (each : List.Forall₂ (program.HasValue condition) ids values) :
    ∃ cost, ∀ bound, Costs condition cost bound
      (evalAll (interpreter program bound) ids) (pure values) := by
  induction each with
  | nil => exact ⟨0, fun _ => .refl (pure [])⟩
  | cons first _ inductionHypothesis =>
      obtain ⟨firstCost, computes⟩ := first
      obtain ⟨restCost, rest⟩ := inductionHypothesis
      refine ⟨firstCost + restCost, fun bound => ?_⟩
      refine (computes bound).bind ?_
      exact (rest bound).last (.refl (pure _))

/-- The fields are stored one after the other, as a dictionary collects
entries. -/
theorem exists_costs_evalEntries {entries : List (Name × ExprId)}
    {members : List (String × Value)}
    (each : List.Forall₂ (fun entry => Dict.SameKey
      (program.HasValue condition) (entry.1.text, entry.2)) entries members)
    (fields : Dict Value) :
    ∃ cost, ∀ bound, Costs condition cost bound
      (evalEntries (interpreter program bound) fields entries)
      (pure (members.foldl (fun dict entry => dict.insert entry.1 entry.2)
        fields)) := by
  induction each generalizing fields with
  | nil => exact ⟨0, fun _ => .refl (pure fields)⟩
  | @cons entry member _ _ first _ inductionHypothesis =>
      obtain ⟨key, value⟩ := member
      obtain ⟨rfl, firstCost, computes⟩ := first
      obtain ⟨restCost, rest⟩ :=
        inductionHypothesis (fields.insert entry.1.text value)
      exact ⟨firstCost + restCost, fun bound =>
        (computes bound).bind (rest bound)⟩

theorem hasValue_array {elements : List ExprId} {values : List Value}
    (node : (program.arena.expr id).node = .literal (.array elements))
    (each : List.Forall₂ (program.HasValue condition) elements values) :
    program.HasValue condition id (.array values) := by
  obtain ⟨cost, costs⟩ := exists_costs_evalAll each
  refine ⟨1 + cost, computes_of_body fun bound => ?_⟩
  simp only [exprBody, node, evalLiteral]
  exact (costs bound).last (.refl (pure _))

theorem hasValue_object {entries : List (Name × ExprId)}
    {members : List (String × Value)}
    (node : (program.arena.expr id).node = .literal (.object entries))
    (each : List.Forall₂ (fun entry => Dict.SameKey
      (program.HasValue condition) (entry.1.text, entry.2))
        entries members) :
    program.HasValue condition id (.object none (Dict.ofEntries members)) := by
  obtain ⟨cost, costs⟩ := exists_costs_evalEntries each []
  refine ⟨1 + cost, computes_of_body fun bound => ?_⟩
  simp only [exprBody, node, evalLiteral]
  exact (costs bound).last (.refl (pure _))

end Program

end PluginSurface
