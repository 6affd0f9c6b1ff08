import PluginSurface.Proofs.Eval.Costs
import PluginSurface.Proofs.Eval.GasLimits
import PluginSurface.Proofs.Eval.Places

/-!
# Receivers of method calls

A method call reads its receiver and stores it back after the method. The place
to store it at is determined only then, so the index expressions on the way are
evaluated a second time. The receiver comes back to where it was read from if
they give the same place once more and change nothing. Otherwise it may be
stored somewhere else, or not at all.
-/

namespace PluginSurface

open Eval Interpreter

/-! ## Reading from a place -/

/-- An expression is a variable or the receiver of a method, with fields and
elements below it, and it spells a place if its index expressions have the
numbers on the way. -/
inductive Arena.Spells (arena : Arena) (numbers : ExprId → Int64 → Prop) :
    ExprId → Place → Prop where
  | identifier {id : ExprId} {name : String}
    (node : (arena.expr id).node = .identifier name) :
    Spells arena numbers id ⟨name, []⟩
  | this {id : ExprId} (node : (arena.expr id).node = .this) :
    Spells arena numbers id ⟨receiverName, []⟩
  | paren {id inner : ExprId} {place : Place}
    (node : (arena.expr id).node = .paren inner)
    (inside : Spells arena numbers inner place) : Spells arena numbers id place
  | member {id object : ExprId} {property : Name} {place : Place}
    (node : (arena.expr id).node = .member object property)
    (above : Spells arena numbers object place) :
    Spells arena numbers id
      ⟨place.root, place.path ++ [.field property.text]⟩
  | index {id object position : ExprId} {index : Int64} {place : Place}
    (node : (arena.expr id).node = .index object position)
    (above : Spells arena numbers object place)
    (number : numbers position index) :
    Spells arena numbers id ⟨place.root, place.path ++ [.index index]⟩

/-- With some numbers for its index expressions, an expression spells a
place. -/
def Arena.IsPlace (arena : Arena) (id : ExprId) : Prop :=
  ∃ place, arena.Spells (fun _ _ => True) id place

/-- Without an index on the way the numbers do not matter. -/
theorem Arena.Spells.of_plain {arena : Arena}
    {numbers others : ExprId → Int64 → Prop} {id : ExprId} {place : Place}
    (spells : arena.Spells numbers id place) (plain : ¬ arena.Indexes id) :
    arena.Spells others id place := by
  induction spells with
  | identifier node => exact .identifier node
  | this node => exact .this node
  | paren node _ inductionHypothesis =>
      exact .paren node (inductionHypothesis fun below =>
        plain (.paren node below))
  | member node _ inductionHypothesis =>
      exact .member node (inductionHypothesis fun below =>
        plain (.member node below))
  | index node => exact (plain (.index node)).elim

/-- The place that an expression stands for and the value there. Every index
expression is evaluated once. -/
def readPlace (program : Program) : Nat → ExprId → Eval (Place × Value)
  | 0, _ => outOfSteps
  | bound + 1, id => do
      tick
      match (program.arena.expr id).node with
      | .identifier name => do
          let value ← variableValue name
          return (⟨name, []⟩, value)
      | .this => do
          let value ← variableValue receiverName
          return (⟨receiverName, []⟩, value)
      | .paren inner => readPlace program bound inner
      | .member object property => do
          let (place, outer) ← readPlace program bound object
          let value ← ofExcept (outer.member property.text)
          return (⟨place.root, place.path ++ [.field property.text]⟩, value)
      | .index object position => do
          let (place, outer) ← readPlace program bound object
          let index ← evalIndex (interpreter program bound) position
          let value ← ofExcept (outer.element index)
          return (⟨place.root, place.path ++ [.index index]⟩, value)
      | _ => fail (.misuse .notAssignable)

section

variable {program : Program} {id : ExprId}

theorem evalExpr_eq_readPlace (isPlace : program.arena.IsPlace id)
    (bound : Nat) :
    evalExpr program bound id =
      readPlace program bound id >>= fun found => pure found.2 := by
  induction bound generalizing id with
  | zero => rfl
  | succ bound inductionHypothesis =>
      obtain ⟨place, spells⟩ := isPlace
      rw [evalExpr_succ]
      cases spells with
      | identifier node =>
          simp only [exprStep, readPlace, node, Eval.bind_assoc]
          exact bind_congr fun _ => (Eval.bind_pure _).symm
      | this node =>
          simp only [exprStep, readPlace, node, Eval.bind_assoc]
          exact bind_congr fun _ => (Eval.bind_pure _).symm
      | paren node inside =>
          simp only [exprStep, readPlace, node, Eval.bind_assoc]
          exact bind_congr fun _ => inductionHypothesis ⟨_, inside⟩
      | member node above =>
          simp only [exprStep, readPlace, node, interpreter,
            inductionHypothesis ⟨_, above⟩, Eval.bind_assoc, Eval.pure_bind]
          refine bind_congr fun _ => bind_congr fun found => ?_
          exact (Eval.bind_pure _).symm
      | index node above _ =>
          simp only [exprStep, readPlace, node, interpreter,
            inductionHypothesis ⟨_, above⟩, Eval.bind_assoc, Eval.pure_bind]
          refine bind_congr fun _ => bind_congr fun found =>
            bind_congr fun index => ?_
          exact (Eval.bind_pure _).symm

theorem find?_of_variableValue {name : String} {value : Value}
    {machine after : Machine}
    (ran : variableValue name machine = some (.ok value, after)) :
    machine.environment.find? name = some value := by
  unfold variableValue at ran
  split at ran <;> cases ran
  assumption

theorem eq_ok_of_ofExcept {Result : Type} {outcome : Except Fault Result}
    {result : Result} {machine after : Machine}
    (ran : Eval.ofExcept outcome machine = some (.ok result, after)) :
    outcome = .ok result :=
  congrArg Prod.fst (Option.some.inj ran)

/-- What is read is the value that the place held at the start: the variable at
the root is read before any index expression is evaluated. -/
theorem spells_and_load_of_readPlace {bound : Nat} {machine after : Machine}
    {place : Place} {value : Value}
    (read : readPlace program bound id machine =
      some (.ok (place, value), after)) :
    program.arena.Spells (fun _ _ => True) id place ∧
      machine.environment.load place = .ok value := by
  induction bound generalizing id machine place value after with
  | zero => cases read
  | succ bound inductionHypothesis =>
      obtain ⟨_, charged, ticked, read⟩ := exists_of_bind read
      cases eq_charged_of_tick ticked
      change _ ∧ (machine.charged 1).environment.load place = .ok value
      generalize machine.charged 1 = machine at read ⊢
      cases node : (program.arena.expr id).node with
      | identifier name =>
          simp only [node] at read
          obtain ⟨held, _, found, ended⟩ := exists_of_bind read
          cases ended
          exact ⟨.identifier node,
            Environment.load_of_find? (find?_of_variableValue found)⟩
      | this =>
          simp only [node] at read
          obtain ⟨held, _, found, ended⟩ := exists_of_bind read
          cases ended
          exact ⟨.this node,
            Environment.load_of_find? (find?_of_variableValue found)⟩
      | paren inner =>
          simp only [node] at read
          obtain ⟨spells, loaded⟩ := inductionHypothesis read
          exact ⟨.paren node spells, loaded⟩
      | member object property =>
          simp only [node] at read
          obtain ⟨⟨above, outer⟩, _, readAbove, read⟩ := exists_of_bind read
          obtain ⟨inner, _, followed, ended⟩ := exists_of_bind read
          cases ended
          obtain ⟨spells, loaded⟩ := inductionHypothesis readAbove
          exact ⟨.member node spells,
            Environment.load_of_follow loaded (eq_ok_of_ofExcept followed)⟩
      | index object position =>
          simp only [node] at read
          obtain ⟨⟨above, outer⟩, _, readAbove, read⟩ := exists_of_bind read
          obtain ⟨index, _, evaluated, read⟩ := exists_of_bind read
          obtain ⟨inner, _, followed, ended⟩ := exists_of_bind read
          cases ended
          obtain ⟨spells, loaded⟩ := inductionHypothesis readAbove
          exact ⟨.index node spells trivial,
            Environment.load_of_follow loaded (eq_ok_of_ofExcept followed)⟩
      | _ =>
          simp only [node] at read
          cases read

end

/-! ## Evaluating an index once more -/

/-- The machine with another amount of gas used. -/
def Machine.withGas (machine : Machine) (gas : Nat) : Machine :=
  { machine with gas := gas }

/-- From a machine, with whatever gas it has used, a computation comes to a
result and changes nothing else, or uses up the gas. -/
structure Eval.Settles {Result : Type} (start : Machine)
    (computation : Eval Result) (result : Result) : Prop where
  metered : Metered computation
  ends : ∀ ⦃gas : Nat⦄ ⦃outcome : Outcome Result⦄,
    computation (start.withGas gas) = some outcome →
      (outcome.1 = .ok result ∧ ∃ used, outcome.2 = start.withGas used) ∨
        outcome.2.gasLimit < outcome.2.gas

/-- Two computations with the same start end alike if they go on alike. -/
theorem Eval.ending_of_bind {Result Next : Type} {first : Eval Result}
    {left right : Result → Eval Next} {machine : Machine}
    {outcome : Outcome Next} {motive : Ending Next → Prop}
    (ran : (first >>= left) machine = some outcome)
    (same : motive (some outcome))
    (next : ∀ result after, first machine = some (.ok result, after) →
      left result after = some outcome → motive (right result after)) :
    motive ((first >>= right) machine) := by
  rcases bind_cases ran with ⟨fault, after, step, rfl⟩ |
    ⟨result, after, step, ran⟩
  · rw [bind_of_error step]
    exact same
  · rw [bind_of_ok step]
    exact next result after step ran

namespace Eval.Settles

variable {Result Next : Type} {start : Machine}

theorem pure (start : Machine) (result : Result) :
    Settles start (Pure.pure result) result where
  metered := .pure result
  ends := by
    rintro gas _ ⟨rfl⟩
    exact .inl ⟨rfl, gas, rfl⟩

theorem outOfSteps (start : Machine) (result : Result) :
    Settles start Eval.outOfSteps result where
  metered := .outOfSteps
  ends := nofun

theorem tick (start : Machine) : Settles start Eval.tick () where
  metered := .tick
  ends := by
    intro gas outcome ran
    unfold Eval.tick at ran
    dsimp only at ran
    split at ran <;> cases ran
    · rename_i exceeds
      exact .inr exceeds
    · exact .inl ⟨rfl, gas + 1, rfl⟩

/-- What goes on from a computation that settles goes on from its result, unless
the gas is used up. -/
theorem onward {first : Eval Result} {next : Result → Eval Next}
    {result : Result} (settles : Settles start first result)
    (meters : ∀ result, Metered (next result)) {gas : Nat}
    {outcome : Outcome Next}
    (ran : (first >>= next) (start.withGas gas) = some outcome) :
    (∃ used,
      first (start.withGas gas) = some (.ok result, start.withGas used) ∧
        next result (start.withGas used) = some outcome) ∨
      outcome.2.gasLimit < outcome.2.gas := by
  rcases bind_cases ran with ⟨fault, middle, step, rfl⟩ |
    ⟨other, middle, step, ran⟩
  · rcases settles.ends step with ⟨same, -⟩ | exceeds
    · cases same
    · exact .inr exceeds
  · rcases settles.ends step with ⟨same, used, rfl⟩ | exceeds
    · cases same
      exact .inl ⟨used, step, ran⟩
    · -- Whatever follows, the gas that was used does not come back.
      have stopped := (meters other).stopped exceeds
      rw [ran] at stopped
      exact .inr stopped

theorem bind {first : Eval Result} {next : Result → Eval Next}
    {result : Result} {last : Next} (before : Settles start first result)
    (meters : ∀ result, Metered (next result))
    (after : Settles start (next result) last) :
    Settles start (first >>= next) last where
  metered := before.metered.bind meters
  ends := by
    intro gas outcome ran
    rcases before.onward meters ran with ⟨used, -, ran⟩ | exceeds
    · exact after.ends ran
    · exact .inr exceeds

theorem spend (start : Machine) (steps : Nat) :
    Settles start (Eval.spend steps) () := by
  induction steps with
  | zero => exact .pure start ()
  | succ steps inductionHypothesis =>
      exact (tick start).bind (fun _ => inductionHypothesis.metered)
        inductionHypothesis

theorem quiet (start : Machine) (steps : Nat) (enough : Bool)
    (result : Result) :
    Settles start (Eval.quiet steps enough (Pure.pure result)) result := by
  cases enough with
  | true =>
      exact (spend start steps).bind (fun _ => .pure result)
        (.pure start result)
  | false =>
      exact (spend start steps).bind (fun _ => .outOfSteps)
        (.outOfSteps start result)

theorem attempt {body : Eval Result} {result : Result}
    (settles : Settles start body result) :
    Settles start (Eval.attempt body) (some result) where
  metered := settles.metered.attempt
  ends := by
    intro gas outcome ran
    unfold Eval.attempt at ran
    split at ran <;> cases ran <;> rename_i step
    · rcases settles.ends step with ⟨same, changesGas⟩ | exceeds
      · cases same
        exact .inl ⟨rfl, changesGas⟩
      · exact .inr exceeds
    · rcases settles.ends step with ⟨same, -⟩ | exceeds
      · cases same
      · exact .inr exceeds

end Eval.Settles

/-- An expression that has a value wherever a condition holds settles there. -/
theorem Program.HasValue.settles {program : Program}
    {condition : Environment → Prop} {id : ExprId} {value : Value}
    (hasValue : program.HasValue condition id value) {start : Machine}
    (holds : condition start.environment) (bound : Nat) :
    Settles start ((interpreter program bound).expr id) value where
  metered := metered_evalExpr program bound id
  ends := by
    obtain ⟨cost, computes⟩ := hasValue
    obtain ⟨steps, enough, -, takes⟩ := computes bound
    intro gas outcome ran
    rw [takes (start.withGas gas) holds] at ran
    exact (Settles.quiet start steps enough value).ends ran

/-- At a machine, an expression stands for a place: its index expressions come
to the numbers on the way and change nothing. -/
def StandsFor (program : Program) (run : Interpreter) (start : Machine)
    (id : ExprId) (place : Place) : Prop :=
  program.arena.Spells
    (fun position index => Settles start (run.expr position) (.int index)) id
    place

section

variable {program : Program} {run : Interpreter} {start : Machine}
  {id : ExprId} {place : Place}

theorem Eval.Settles.evalIndex {position : ExprId} {index : Int64}
    (settles : Settles start (run.expr position) (.int index)) :
    Settles start (Interpreter.evalIndex run position) index := by
  unfold Interpreter.evalIndex
  refine settles.bind (fun value => ?_) (.pure start index)
  split
  · exact .pure _
  · exact .fail _

/-- Where an expression stands for a place, the place comes out. -/
theorem StandsFor.settles (standsFor : StandsFor program run start id place)
    (bound : Nat) : Settles start (placeAt program run bound id) place := by
  induction bound generalizing id place with
  | zero => exact .outOfSteps start place
  | succ bound inductionHypothesis =>
      cases standsFor with
      | identifier node =>
          simp only [placeAt, node]
          exact .pure start _
      | this node =>
          simp only [placeAt, node]
          exact .pure start _
      | paren node inside =>
          simp only [placeAt, node]
          exact inductionHypothesis inside
      | member node above =>
          simp only [placeAt, node]
          exact (inductionHypothesis above).bind (fun _ => .pure _)
            (.pure start _)
      | index node above settles =>
          have position := settles.evalIndex
          simp only [placeAt, node]
          exact (inductionHypothesis above).bind
            (fun _ => position.metered.bind fun _ => .pure _)
            (position.bind (fun _ => .pure _) (.pure start _))

end

/-! ## Method calls -/

section

variable (program : Program) (bound : Nat) (object : ExprId) (method : String)
  (arguments : List ExprId)

/-- A method call up to the end of the method: the place of the receiver, the
result and, if the method may have changed it, the receiver. -/
def runMethod : Eval (Place × Value × Option Value) := do
  let (place, receiver) ← readPlace program bound object
  let values ← evalAll (interpreter program bound) arguments
  let (result, changed) ←
    callMethod program (interpreter program bound) receiver method values
  return (place, result, changed)

/-- Stores a receiver that a method has changed and gives the result of the
method. -/
def storeReceiver (place : Place) (receiver result : Value) : Eval Value := do
  store place receiver
  return result

/-- A method call that stores a changed receiver at the place where it was
read. -/
def methodCallOnce : Eval Value := do
  let (place, result, changed) ← runMethod program bound object method arguments
  match changed with
  | none => return result
  | some receiver => storeReceiver place receiver result

/-- The rest of a method call that has changed its receiver. -/
def storeBack (receiver result : Value) : Eval Value := do
  match ← attempt (place program (interpreter program bound) object) with
  | some place => storeReceiver place receiver result
  | none => return result

end

section

variable {program : Program} {bound : Nat} {object : ExprId} {method : String}
  {arguments : List ExprId} {machine : Machine}

/-- A method call up to the end of the method, and what it does then. -/
theorem evalExpr_methodCall {call callee : ExprId} {types : List TypeExpr}
    {property : Name}
    (called : (program.arena.expr call).node = .call callee types arguments)
    (isMember : (program.arena.expr callee).node = .member object property)
    (isPlace : program.arena.IsPlace object) :
    evalExpr program (bound + 1) call =
      (do
        tick
        let (_, result, changed) ←
          runMethod program bound object property.text arguments
        match changed with
        | none => return result
        | some receiver => storeBack program bound object receiver result) := by
  have read : (interpreter program bound).expr object = _ :=
    evalExpr_eq_readPlace isPlace bound
  rw [evalExpr_succ]
  simp only [exprStep, called, evalCall, isMember, evalMethodCall, runMethod,
    read, Eval.bind_assoc, Eval.pure_bind]
  refine bind_congr fun _ => bind_congr fun found => bind_congr fun values =>
    bind_congr fun ended => ?_
  cases ended.2 with
  | none => rfl
  | some receiver => rfl

theorem spells_of_runMethod {place : Place} {result : Value}
    {changed : Option Value} {after : Machine}
    (ran : runMethod program bound object method arguments machine =
      some (.ok (place, result, changed), after)) :
    program.arena.Spells (fun _ _ => True) object place := by
  obtain ⟨⟨found, value⟩, _, read, ran⟩ := exists_of_bind ran
  obtain ⟨values, _, -, ran⟩ := exists_of_bind ran
  obtain ⟨ending, _, -, ended⟩ := exists_of_bind ran
  cases ended
  exact (spells_and_load_of_readPlace read).1

section

variable {place : Place} {receiver result : Value} {outcome : Outcome Value}

theorem metered_storeReceiver :
    Metered (storeReceiver place receiver result) :=
  (Metered.store place receiver).bind fun _ => .pure result

/-- A store takes no gas and does not look at it. -/
theorem storeReceiver_of_withGas {gas : Nat}
    (ran : storeReceiver place receiver result (machine.withGas gas) =
      some outcome) :
    outcome.2.gas = gas ∧
      storeReceiver place receiver result machine =
        some (outcome.1, outcome.2.withGas machine.gas) := by
  change andThen _ _ _ = _ at ran
  change _ ∧ andThen _ _ _ = _
  unfold andThen store Machine.withGas at *
  dsimp only at ran ⊢
  generalize machine.environment.store place receiver = stored at ran ⊢
  rcases stored with ⟨_ | fault, after⟩ <;> cases ran <;> exact ⟨rfl, rfl⟩

/-- Within the gas limit, a receiver that still stands for a place is stored
there. -/
theorem storeBack_of_settles
    (settles : Settles machine
      (Interpreter.place program (interpreter program bound) object) place)
    (ran : storeBack program bound object receiver result machine =
      some outcome)
    (within : outcome.2.gas ≤ outcome.2.gasLimit) :
    machine.gas ≤ outcome.2.gas ∧
      (¬ program.arena.Indexes object → machine.gas = outcome.2.gas) ∧
      storeReceiver place receiver result machine =
        some (outcome.1, outcome.2.withGas machine.gas) := by
  have meters : ∀ found : Option Place, Metered (match found with
      | some place => storeReceiver place receiver result
      | none => pure result) := by
    intro found
    cases found with
    | none => exact .pure result
    | some place => exact metered_storeReceiver
  obtain ⟨used, settled, stored⟩ :=
    (settles.attempt.onward meters ran).resolve_right (Nat.not_lt.mpr within)
  obtain ⟨spent, storedHere⟩ := storeReceiver_of_withGas stored
  rw [spent]
  refine ⟨(settles.attempt.metered settled).1, fun plain => ?_, storedHere⟩
  have leaves : Leaves SameMeter (attempt
      (Interpreter.place program (interpreter program bound) object)) :=
    (leaves_sameMeter_placeAt _ _ plain).attempt
  exact (leaves settled).1.symm

end

/-- A method call that stays within the gas limit reads its receiver from a
place, and ends as if it stored the receiver right there, save for the gas that
evaluating the place anew has used. If the method has changed a receiver that
stands below an index, the index expressions have to come to the same numbers
once more and change nothing. -/
theorem methodCall_eq_once {call callee : ExprId} {types : List TypeExpr}
    {property : Name} {outcome : Outcome Value}
    (called : (program.arena.expr call).node = .call callee types arguments)
    (isMember : (program.arena.expr callee).node = .member object property)
    (isPlace : program.arena.IsPlace object)
    (ran : evalExpr program (bound + 1) call machine = some outcome)
    (within : outcome.2.gas ≤ outcome.2.gasLimit)
    (recurs : ∀ ⦃place : Place⦄ ⦃result receiver : Value⦄ ⦃after : Machine⦄,
      program.arena.Indexes object →
      runMethod program bound object property.text arguments
          (machine.charged 1) =
        some (.ok (place, result, some receiver), after) →
        StandsFor program (interpreter program bound) after object place) :
    (∀ ⦃place : Place⦄ ⦃value : Value⦄ ⦃after : Machine⦄,
      readPlace program bound object (machine.charged 1) =
        some (.ok (place, value), after) →
        machine.environment.load place = .ok value) ∧
      ∃ gas ≤ outcome.2.gas,
        (¬ program.arena.Indexes object → gas = outcome.2.gas) ∧
        methodCallOnce program bound object property.text arguments
            (machine.charged 1) =
          some (outcome.1, outcome.2.withGas gas) := by
  refine ⟨fun place value after read =>
    (spells_and_load_of_readPlace read).2, ?_⟩
  rw [evalExpr_methodCall called isMember isPlace] at ran
  by_cases exceeds : machine.gasLimit < machine.gas + 1
  · rw [tick_bind_of_over exceeds] at ran
    cases ran
    exact (Nat.not_lt.mpr within exceeds).elim
  rw [tick_bind_of_fits exceeds] at ran
  -- Up to the end of the method both calls are the same, also where they fail.
  let alike (ending : Ending Value) : Prop :=
    ∃ gas ≤ outcome.2.gas,
      (¬ program.arena.Indexes object → gas = outcome.2.gas) ∧
        ending = some (outcome.1, outcome.2.withGas gas)
  have same : alike (some outcome) :=
    ⟨outcome.2.gas, Nat.le_refl _, fun _ => rfl, rfl⟩
  refine ending_of_bind (motive := alike) ran same ?_
  rintro ⟨place, result, changed⟩ after ranMethod rest
  cases changed with
  | none =>
      cases rest
      exact same
  | some receiver =>
      have standsFor : StandsFor program (interpreter program bound) after
          object place := by
        by_cases below : program.arena.Indexes object
        · exact recurs below ranMethod
        · exact (spells_of_runMethod ranMethod).of_plain below
      obtain ⟨rose, spent, stored⟩ :=
        storeBack_of_settles (standsFor.settles _) rest within
      exact ⟨after.gas, rose, spent, stored⟩

end

namespace Sample

/-- The calls `g[n].push(7)` and `g[n = n ? 0 : 1].push(7)`. -/
def rows : Program :=
  ⟨"index", .entry, [],
    ⟨#[⟨.identifier "g", default⟩, ⟨.identifier "n", default⟩,
        ⟨.literal (.integer 0 "0"), default⟩,
        ⟨.literal (.integer 1 "1"), default⟩,
        ⟨.conditional ⟨1⟩ ⟨2⟩ ⟨3⟩, default⟩, ⟨.assign none ⟨1⟩ ⟨4⟩, default⟩,
        ⟨.index ⟨0⟩ ⟨1⟩, default⟩, ⟨.index ⟨0⟩ ⟨5⟩, default⟩,
        ⟨.member ⟨6⟩ ⟨"push", default⟩, default⟩,
        ⟨.member ⟨7⟩ ⟨"push", default⟩, default⟩,
        ⟨.literal (.integer 7 "7"), default⟩, ⟨.call ⟨8⟩ [] [⟨10⟩], default⟩,
        ⟨.call ⟨9⟩ [] [⟨10⟩], default⟩], #[]⟩,
    default⟩

/-- A machine with two rows in `g` and a number in `n`. -/
def rowsMachine (first second : List Value) (number : Int64) (gas : Nat) :
    Machine :=
  ⟨⟨[("g", .array [.array first, .array second]), ("n", .int number)], []⟩,
    gas, 100, 0⟩

end Sample

/-- Pushing onto the row that `n` selects. -/
theorem methodCall_eq_once_of_variable :
    ∃ gas ≤ 6, methodCallOnce Sample.rows 9 ⟨6⟩ "push" [⟨10⟩]
        (Sample.rowsMachine [] [.int 5] 1 1) =
      some (.ok (.int 2), Sample.rowsMachine [] [.int 5, .int 7] 1 gas) := by
  have ran : evalExpr Sample.rows 10 ⟨11⟩
      (Sample.rowsMachine [] [.int 5] 1 0) =
        some (.ok (.int 2),
          Sample.rowsMachine [] [.int 5, .int 7] 1 6) := rfl
  have position {start : Machine}
      (holds : start.environment.find? "n" = some (.int 1)) :
      Settles start ((interpreter Sample.rows 9).expr ⟨1⟩) (.int 1) := by
    have computes : Sample.rows.Computes
        (fun environment => environment.find? "n" = some (.int 1)) 1 ⟨1⟩
          (.int 1) :=
      Program.computes_identifier rfl fun _ found => found
    exact computes.hasValue.settles holds 9
  have called : (Sample.rows.arena.expr ⟨11⟩).node = .call ⟨8⟩ [] [⟨10⟩] := rfl
  have isPlace : Sample.rows.arena.IsPlace ⟨6⟩ :=
    ⟨⟨"g", [.index 1]⟩, .index rfl (.identifier rfl) trivial⟩
  have once := methodCall_eq_once called rfl isPlace ran (by decide) <| by
    rintro _ _ _ _ - ⟨rfl⟩
    exact .index rfl (.identifier rfl) (position rfl)
  obtain ⟨gas, most, -, ended⟩ := once.2
  exact ⟨gas, most, ended⟩

/-- With `n = 0`, the row of index 1 is read in `g[n = n ? 0 : 1].push(7)`, and
it comes back to index 0. -/
theorem methodCall_stores_elsewhere :
    ¬ ∀ (program : Program) (bound : Nat) (call callee object : ExprId)
      (types : List TypeExpr) (property : Name) (arguments : List ExprId)
      (machine : Machine) (outcome : Outcome Value),
      (program.arena.expr call).node = .call callee types arguments →
      (program.arena.expr callee).node = .member object property →
      program.arena.IsPlace object →
      evalExpr program (bound + 1) call machine = some outcome →
      outcome.2.gas ≤ outcome.2.gasLimit →
        ∃ gas, methodCallOnce program bound object property.text arguments
            (machine.charged 1) =
          some (outcome.1, outcome.2.withGas gas) := by
  intro claim
  have called : (Sample.rows.arena.expr ⟨12⟩).node = .call ⟨9⟩ [] [⟨10⟩] := rfl
  have isMember : (Sample.rows.arena.expr ⟨9⟩).node =
      .member ⟨7⟩ ⟨"push", default⟩ := rfl
  have isPlace : Sample.rows.arena.IsPlace ⟨7⟩ :=
    ⟨⟨"g", [.index 1]⟩, .index rfl (.identifier rfl) trivial⟩
  have pushed : runMethod Sample.rows 9 ⟨7⟩ "push" [⟨10⟩]
      (Sample.rowsMachine [] [.int 5] 0 1) =
        some (.ok (⟨"g", [.index 1]⟩, .int 2, some (.array [.int 5, .int 7])),
          Sample.rowsMachine [] [.int 5] 1 8) := rfl
  have stored : storeBack Sample.rows 9 ⟨7⟩ (.array [.int 5, .int 7]) (.int 2)
      (Sample.rowsMachine [] [.int 5] 1 8) =
        some (.ok (.int 2),
          Sample.rowsMachine [.int 5, .int 7] [.int 5] 0 12) := rfl
  have ran : evalExpr Sample.rows 10 ⟨12⟩
      (Sample.rowsMachine [] [.int 5] 0 0) =
        some (.ok (.int 2),
          Sample.rowsMachine [.int 5, .int 7] [.int 5] 0 12) := by
    rw [evalExpr_methodCall called isMember isPlace,
      tick_bind_of_fits (by decide)]
    exact (bind_of_ok pushed _).trans stored
  have once : methodCallOnce Sample.rows 9 ⟨7⟩ "push" [⟨10⟩]
      (Sample.rowsMachine [] [.int 5] 0 1) =
        some (.ok (.int 2),
          Sample.rowsMachine [] [.int 5, .int 7] 1 8) :=
    bind_of_ok pushed _
  obtain ⟨gas, ended⟩ := claim Sample.rows 9 ⟨12⟩ ⟨9⟩ ⟨7⟩ []
    ⟨"push", default⟩ [⟨10⟩] (Sample.rowsMachine [] [.int 5] 0 0) _ called
    isMember isPlace ran (by decide)
  have moved := once.symm.trans ended
  cases moved

end PluginSurface
