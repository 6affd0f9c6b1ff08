import PluginSurface.Proofs.Eval.Simulation
import PluginSurface.Proofs.Syntax.Depiction

/-!
# Relations that evaluation keeps

The functions of the interpreter are put together from few elementary steps. A
relation between computations that holds of these steps and is kept by
sequencing therefore holds of every function of the interpreter, and one
induction on the bound carries it to whole evaluations. A property of single
computations is the case of a relation that ignores its right side.

A relation has two forms. The `plain` one is for computations that define no
variable in the innermost scope, such as expressions, and the `defining` one is
for those that may, such as statements. Calls are left open: a relation may
relate the calls of two evaluations that treat them differently.
-/

namespace PluginSurface

open Eval

/-! ## Faults of operations on values -/

/-- Whether a fault says that an evaluation came to one of its limits, and not
what went wrong in the program. -/
def Fault.isLimit : Fault → Bool
  | gasExhausted | stackOverflow => true
  | _ => false

/-- An outcome that is no limit of an evaluation. -/
def WithinLimits {Result : Type} (outcome : Except Fault Result) : Prop :=
  ∀ fault, outcome = .error fault → fault.isLimit = false

section

variable {Result Next : Type}

theorem withinLimits_ok (result : Result) : WithinLimits (.ok result) := by
  intro fault same
  cases same

theorem withinLimits_error {fault : Fault} (ordinary : fault.isLimit = false) :
    WithinLimits (.error fault : Except Fault Result) := by
  intro other same
  cases same
  exact ordinary

theorem WithinLimits.bind {outcome : Except Fault Result}
    {next : Result → Except Fault Next} (first : WithinLimits outcome)
    (second : ∀ result, WithinLimits (next result)) :
    WithinLimits (outcome >>= next) := by
  cases outcome with
  | ok result => exact second result
  | error fault => exact withinLimits_error (first fault rfl)

end

namespace Value

theorem withinLimits_member (value : Value) (name : String) :
    WithinLimits (value.member name) := by
  unfold member
  split
  · split
    · exact withinLimits_ok _
    · exact withinLimits_error rfl
  · split
    · exact withinLimits_ok _
    · exact withinLimits_error rfl
  · split
    · exact withinLimits_ok _
    · exact withinLimits_error rfl
  · exact withinLimits_error rfl
  · exact withinLimits_error rfl

theorem withinLimits_element (value : Value) (index : Int64) :
    WithinLimits (value.element index) := by
  unfold element
  split
  · split
    · exact withinLimits_ok _
    · exact withinLimits_error rfl
  · split
    · exact withinLimits_ok _
    · exact withinLimits_error rfl
  · exact withinLimits_error rfl
  · exact withinLimits_error rfl

theorem withinLimits_follow (value : Value) (step : Step) :
    WithinLimits (value.follow step) := by
  cases step with
  | field name => exact withinLimits_member value name
  | index index => exact withinLimits_element value index

theorem withinLimits_followAll (value : Value) (path : List Step) :
    WithinLimits (value.followAll path) := by
  induction path generalizing value with
  | nil => exact withinLimits_ok value
  | cons step rest inductionHypothesis =>
      exact (withinLimits_follow value step).bind inductionHypothesis

theorem isLimit_of_assign {target after value : Value} {path : List Step}
    {fault : Fault} (fails : target.assign path value = (some fault, after)) :
    fault.isLimit = false := by
  induction path generalizing target after with
  | nil =>
      unfold assign at fails
      cases fails
  | cons step rest inductionHypothesis =>
      unfold assign at fails
      split at fails
      · have inner := Prod.mk.inj fails
        exact inductionHypothesis (Prod.ext inner.1 rfl)
      · split at fails
        · have inner := Prod.mk.inj fails
          exact inductionHypothesis (Prod.ext inner.1 rfl)
        · cases fails
          rfl
      · cases fails
        rfl
      · cases fails
        rfl

theorem withinLimits_unary (operator : UnaryOperator) (operand : Value) :
    WithinLimits (unary operator operand) := by
  unfold unary
  split <;> first
    | exact withinLimits_ok _
    | exact withinLimits_error rfl

/-- Operands of other types are no limit either. -/
theorem withinLimits_binary (operator : BinaryOperator) (left right : Value) :
    WithinLimits (binary operator left right) := by
  unfold binary
  dsimp only
  repeat' split
  all_goals first
    | exact withinLimits_ok _
    | exact withinLimits_error rfl

end Value

theorem Environment.withinLimits_load (environment : Environment)
    (place : Place) : WithinLimits (environment.load place) := by
  unfold load
  split
  · exact Value.withinLimits_followAll _ _
  · exact withinLimits_error rfl

theorem Environment.isLimit_of_store {environment after : Environment}
    {place : Place} {value : Value} {fault : Fault}
    (fails : environment.store place value = (some fault, after)) :
    fault.isLimit = false := by
  unfold store at fails
  split at fails
  · have inner := Prod.mk.inj fails
    exact Value.isLimit_of_assign (Prod.ext inner.1 rfl)
  · cases fails
    rfl

namespace Interpreter

theorem withinLimits_arrayMethod (items : List Value) (method : String)
    (arguments : List Value) :
    WithinLimits (arrayMethod items method arguments) := by
  unfold arrayMethod
  dsimp only
  split
  · exact withinLimits_ok _
  · exact withinLimits_ok _
  · split
    · exact withinLimits_ok _
    · exact withinLimits_ok _
  · exact withinLimits_error rfl

/-! ## Steps with calls left open -/

/-- How a function is called with a receiver and arguments. -/
abbrev Invocation :=
  FunctionDecl → Option Value → List (Option Value) →
    Eval (Value × Option Value)

section

variable (program : Program) (run : Interpreter) (invocation : Invocation)

def callMethodBy (receiver : Value) (method : String)
    (arguments : List Value) : Eval (Value × Option Value) :=
  match receiver with
  | .object (some className) _ =>
      let methods :=
        match program.class? className with
        | some decl => decl.methods
        | none => []
      match methods.find? fun decl => decl.name.text == method with
      | some decl => invocation decl (some receiver) (arguments.map some)
      | none => fail (.unknownMethod className method)
  | .array items => ofExcept (arrayMethod items method arguments)
  | .null => fail (.nullAccess (.call method))
  | _ => fail (.unknownMethod receiver.typeName method)

def evalMethodCallBy (object : ExprId) (method : String)
    (arguments : List ExprId) : Eval Value := do
  let receiver ← run.expr object
  let values ← evalAll run arguments
  let (result, after) ←
    callMethodBy program invocation receiver method values
  match after with
  | none => return result
  | some after =>
      match ← attempt (place program run object) with
      | some place =>
          store place after
          return result
      | none => return result

def evalCallBy (callee : ExprId) (arguments : List ExprId) : Eval Value :=
  match (program.arena.expr callee).node with
  | .identifier name => do
      if name = "super" then
        discard (evalAll run arguments)
        return .null
      else
        let function ← lookUp program name
        let values ← evalAll run arguments
        let (result, _) ← invocation function none (values.map some)
        return result
  | .member object property =>
      evalMethodCallBy program run invocation object property.text arguments
  | _ => fail (.misuse .notCallable)

def evalNewBy (type : TypeExpr) (arguments : List ExprId) : Eval Value := do
  let name := type.baseName?.getD ""
  match program.class? name with
  | none => fail (.unknownClass type.text)
  | some decl =>
      let fields ← initialFields run [] decl.fields
      let created := Value.object (some name) fields
      let values ← evalAll run arguments
      match decl.methods.find? fun method =>
          method.name.text == "constructor" with
      | some constructor =>
          let (_, after) ←
            invocation constructor (some created) (values.map some)
          return after.getD created
      | none =>
          if values.isEmpty then return created
          else fail (.arityMismatch (name ++ ".constructor") 0 values.length)

/-- What a call does in the frame of its own. -/
def runFrame (function : FunctionDecl) (body : Block)
    (receiver : Option Value) (arguments : List (Option Value)) :
    Eval (Value × Option Value) :=
  match receiver with
  | none => do
      let value ← runBody run function body arguments
      return (value, none)
  | some receiver => do
      define receiverName receiver
      let value ← runBody run function body arguments
      let after ← inspect fun machine =>
        machine.environment.find? receiverName
      return (value, after)

/-- How a frame is entered to run a computation in it. -/
abbrev Entrance :=
  Eval (Value × Option Value) → Eval (Value × Option Value)

/-- The entrance that the depth of the machine guards. -/
def enter : Entrance := fun frame => do
  if Machine.depthLimit ≤ (← inspect Machine.depth) then fail .stackOverflow
  else inCall frame

def invokeBy (entrance : Entrance) : Invocation :=
  fun function receiver arguments =>
    if function.params.length < arguments.length then
      fail (.arityMismatch function.resolvedName function.params.length
        arguments.length)
    else
      match function.body with
      | none => fail (.hostImport function.resolvedName)
      | some body => entrance (runFrame run function body receiver arguments)

/-- What the evaluation of an expression does after it has used its gas. -/
def exprBody (id : ExprId) : Eval Value :=
  match (program.arena.expr id).node with
  | .literal literal => evalLiteral run literal
  | .identifier name => variableValue name
  | .this => variableValue receiverName
  | .new type arguments => evalNewBy program run invocation type arguments
  | .call callee _ arguments =>
      evalCallBy program run invocation callee arguments
  | .member object property => do
      let value ← run.expr object
      ofExcept (value.member property.text)
  | .index object index => do
      let value ← run.expr object
      let index ← evalIndex run index
      ofExcept (value.element index)
  | .binary operator left right => evalBinary run operator left right
  | .unary operator operand => do
      let value ← run.expr operand
      ofExcept (Value.unary operator value)
  | .assign operator target value =>
      evalAssign program run operator target value
  | .conditional condition whenTrue whenFalse => do
      if (← run.expr condition).isTruthy then run.expr whenTrue
      else run.expr whenFalse
  | .cast operand type => do
      let value ← run.expr operand
      return value.cast type
  | .paren inner => run.expr inner

/-- What the execution of a statement does after it has used its gas. -/
def stmtBody (id : StmtId) : Eval Flow :=
  match (program.arena.stmt id).node with
  | .block block => inScope (execAll run block.statements)
  | .expression value => do
      discard (run.expr value)
      return .normal
  | .binding _ name _ value => do
      let value ← evalOptional run value
      define name.text value
      return .normal
  | .branch condition whenTrue whenFalse => do
      if (← run.expr condition).isTruthy then run.stmt whenTrue
      else
        match whenFalse with
        | some whenFalse => run.stmt whenFalse
        | none => return .normal
  | .loop condition body => do
      let bound ← inspect Machine.stepBound
      repeatWhile (run.expr condition) (run.stmt body) bound
  | .return value => do
      let value ← evalOptional run value
      return .return value
  | .throw value => do
      let value ← run.expr value
      fail (.thrown value)
  | .empty => return .normal

/-- A call by the host. -/
def hostCall (name : String) (arguments : List (Option Value)) :
    Eval Value := do
  let function ← lookUp program name
  let (value, _) ← invocation function none arguments
  return value

/-- A call by the host with the mask of the supplied arguments. -/
def hostCallWithMask (name : String) (arguments : List Value) (mask : UInt64) :
    Eval Value := do
  let function ← lookUp program name
  if Machine.takesMask function then
    let values := arguments ++ [.int mask.toInt64]
    let (value, _) ← invocation function none (values.map some)
    return value
  else fail (.misuse (.maskNotTaken name))

theorem invoke_eq_invokeBy : invoke run = invokeBy run enter := by
  funext function receiver arguments
  cases receiver <;> rfl

end

end Interpreter

theorem Machine.call_eq_hostCall (program : Program) (machine : Machine)
    (name : String) (arguments : List (Option Value)) :
    machine.call program name arguments =
      machine.run fun bound =>
        Interpreter.hostCall program
          (Interpreter.invoke (interpreter program bound)) name arguments :=
  rfl

/-! ## Congruences -/

/-- A relation between computations with results of one type. -/
abbrev EvalRelation : Type 1 :=
  ∀ ⦃Result : Type⦄, Eval Result → Eval Result → Prop

/-- Two forms of a relation that hold of the elementary steps and are kept by
sequencing. A congruence says nothing of using gas, of calls and of loops. -/
structure Congruence (plain defining : EvalRelation) : Prop where
  pure : ∀ {Result : Type} (result : Result),
    plain (Pure.pure result) (Pure.pure result)
  ofExcept : ∀ {Result : Type} {outcome : Except Fault Result},
    WithinLimits outcome → plain (ofExcept outcome) (ofExcept outcome)
  variableValue : ∀ name, plain (variableValue name) (variableValue name)
  binding : ∀ name,
    plain (inspect fun machine => machine.environment.find? name)
      (inspect fun machine => machine.environment.find? name)
  load : ∀ place, plain (load place) (load place)
  store : ∀ place value, plain (store place value) (store place value)
  define : ∀ name value, defining (define name value) (define name value)
  bind : ∀ {Result Next : Type} {left right : Eval Result}
    {leftNext rightNext : Result → Eval Next}, plain left right →
      (∀ result, plain (leftNext result) (rightNext result)) →
        plain (left >>= leftNext) (right >>= rightNext)
  bindDefining : ∀ {Result Next : Type} {left right : Eval Result}
    {leftNext rightNext : Result → Eval Next}, defining left right →
      (∀ result, defining (leftNext result) (rightNext result)) →
        defining (left >>= leftNext) (right >>= rightNext)
  weaken : ∀ {Result : Type} {left right : Eval Result},
    plain left right → defining left right
  inScope : ∀ {Result : Type} {left right : Eval Result},
    defining left right → defining (inScope left) (inScope right)

/-- The parts of a program are related in two evaluations. -/
structure PartsRelated (plain defining : EvalRelation)
    (left right : Interpreter) : Prop where
  expr : ∀ id, plain (left.expr id) (right.expr id)
  stmt : ∀ id, defining (left.stmt id) (right.stmt id)

/-- An expression whose method is called somewhere in a program. -/
def Program.Receives (program : Program) (object : ExprId) : Prop :=
  ∃ call callee types arguments property,
    (program.arena.expr call).node = .call callee types arguments ∧
      (program.arena.expr callee).node = .member object property

/-- Besides the parts, what a congruence says nothing of is related: calls,
loops, places and what becomes of a receiver that stands at no place. -/
structure StepsRelated (program : Program) (plain defining : EvalRelation)
    (left right : Interpreter) (leftCall rightCall : Interpreter.Invocation) :
    Prop extends PartsRelated plain defining left right where
  call : ∀ function receiver arguments,
    plain (leftCall function receiver arguments)
      (rightCall function receiver arguments)
  place : ∀ id, plain (Interpreter.place program left id)
    (Interpreter.place program right id)
  settle : ∀ object, program.Receives object →
    plain (attempt (Interpreter.place program left object))
      (attempt (Interpreter.place program right object))
  loop : ∀ condition body,
    defining
      (inspect Machine.stepBound >>=
        repeatWhile (left.expr condition) (left.stmt body))
      (inspect Machine.stepBound >>=
        repeatWhile (right.expr condition) (right.stmt body))

section

variable {plain defining : EvalRelation} {left right : Interpreter}

namespace Congruence

variable (congruence : Congruence plain defining)

include congruence

theorem fail {Result : Type} {fault : Fault}
    (ordinary : fault.isLimit = false) :
    plain (Eval.fail fault : Eval Result) (Eval.fail fault) :=
  congruence.ofExcept (withinLimits_error ordinary)

theorem discard {Result : Type} {first second : Eval Result}
    (related : plain first second) :
    plain (Functor.discard first) (Functor.discard second) :=
  congruence.bind related fun _ => congruence.pure ()

theorem lookUp (program : Program) (name : String) :
    plain (Interpreter.lookUp program name)
      (Interpreter.lookUp program name) := by
  unfold Interpreter.lookUp
  split
  · exact congruence.pure _
  · exact congruence.fail rfl

end Congruence

namespace PartsRelated

variable (parts : PartsRelated plain defining left right)
  (congruence : Congruence plain defining)

include parts congruence

/-! ### Lists of parts -/

theorem evalAll (ids : List ExprId) :
    plain (Interpreter.evalAll left ids) (Interpreter.evalAll right ids) := by
  induction ids with
  | nil => exact congruence.pure []
  | cons id rest inductionHypothesis =>
      apply congruence.bind (parts.expr id)
      intro first
      apply congruence.bind inductionHypothesis
      intro values
      exact congruence.pure _

theorem evalEntries (fields : Dict Value) (entries : List (Name × ExprId)) :
    plain (Interpreter.evalEntries left fields entries)
      (Interpreter.evalEntries right fields entries) := by
  induction entries generalizing fields with
  | nil => exact congruence.pure fields
  | cons entry rest inductionHypothesis =>
      apply congruence.bind (parts.expr entry.2)
      intro value
      exact inductionHypothesis _

theorem execAll (ids : List StmtId) :
    defining (Interpreter.execAll left ids)
      (Interpreter.execAll right ids) := by
  induction ids with
  | nil => exact congruence.weaken (congruence.pure _)
  | cons id rest inductionHypothesis =>
      apply congruence.bindDefining (parts.stmt id)
      intro flow
      cases flow with
      | normal => exact inductionHypothesis
      | «return» value => exact congruence.weaken (congruence.pure _)

theorem evalOptional (id : Option ExprId) :
    plain (Interpreter.evalOptional left id)
      (Interpreter.evalOptional right id) := by
  cases id with
  | none => exact congruence.pure _
  | some id => exact parts.expr id

/-! ### Bodies of functions -/

theorem paramValue (function : FunctionDecl) (param : Param)
    (argument : Option Value) :
    plain (Interpreter.paramValue left function param argument)
      (Interpreter.paramValue right function param argument) := by
  unfold Interpreter.paramValue
  split
  · exact congruence.pure _
  · exact parts.expr _
  · exact congruence.fail rfl

theorem bindParams (function : FunctionDecl) (params : List Param)
    (arguments : List (Option Value)) :
    defining (Interpreter.bindParams left function params arguments)
      (Interpreter.bindParams right function params arguments) := by
  induction params generalizing arguments with
  | nil => exact congruence.weaken (congruence.pure ())
  | cons param rest inductionHypothesis =>
      rw [Interpreter.bindParams_cons, Interpreter.bindParams_cons]
      have value := parts.paramValue congruence function param
        arguments.head?.join
      apply congruence.bindDefining (congruence.weaken value)
      intro value
      apply congruence.bindDefining (congruence.define _ value)
      intro defined
      exact inductionHypothesis arguments.tail

theorem runBody (function : FunctionDecl) (body : Block)
    (arguments : List (Option Value)) :
    defining (Interpreter.runBody left function body arguments)
      (Interpreter.runBody right function body arguments) := by
  apply congruence.bindDefining (parts.bindParams congruence function _ _)
  intro bound
  apply congruence.bindDefining (parts.execAll congruence body.statements)
  intro flow
  cases flow <;> exact congruence.weaken (congruence.pure _)

theorem runFrame (function : FunctionDecl) (body : Block)
    (receiver : Option Value) (arguments : List (Option Value)) :
    defining (Interpreter.runFrame left function body receiver arguments)
      (Interpreter.runFrame right function body receiver arguments) := by
  have ran := parts.runBody congruence function body arguments
  cases receiver with
  | none =>
      apply congruence.bindDefining ran
      intro value
      exact congruence.weaken (congruence.pure _)
  | some receiver =>
      apply congruence.bindDefining (congruence.define _ receiver)
      intro defined
      apply congruence.bindDefining ran
      intro value
      apply congruence.bindDefining
        (congruence.weaken (congruence.binding _))
      intro after
      exact congruence.weaken (congruence.pure _)

/-- A second congruence relates the calls if it does so once related frames are
entered. -/
theorem invokeBy {outer outerDefining : EvalRelation}
    (outside : Congruence outer outerDefining)
    (leftEntrance rightEntrance : Interpreter.Entrance)
    (enters : ∀ {leftFrame rightFrame}, defining leftFrame rightFrame →
      outer (leftEntrance leftFrame) (rightEntrance rightFrame))
    (function : FunctionDecl) (receiver : Option Value)
    (arguments : List (Option Value)) :
    outer
      (Interpreter.invokeBy left leftEntrance function receiver arguments)
      (Interpreter.invokeBy right rightEntrance function receiver
        arguments) := by
  unfold Interpreter.invokeBy
  split
  · exact outside.fail rfl
  · split
    · exact outside.fail rfl
    · exact enters (parts.runFrame congruence function _ receiver arguments)

/-! ### Places -/

theorem evalIndex (id : ExprId) :
    plain (Interpreter.evalIndex left id)
      (Interpreter.evalIndex right id) := by
  apply congruence.bind (parts.expr id)
  intro value
  split
  · exact congruence.pure _
  · exact congruence.fail rfl

/-- Places are related if the evaluations come to an end for too few steps, or
if the steps are enough to come to the first node of the arena. -/
theorem placeAt (program : Program) {bound : Nat} {id : ExprId}
    (ends : plain (outOfSteps : Eval Place) outOfSteps ∨
      program.arena.Closed ∧ id.index < bound) :
    plain (Interpreter.placeAt program left bound id)
      (Interpreter.placeAt program right bound id) := by
  induction bound generalizing id with
  | zero =>
      rcases ends with stopped | ⟨closed, low⟩
      · exact stopped
      · exact (Nat.not_lt_zero _ low).elim
  | succ bound inductionHypothesis =>
      have below {child : ExprId}
          (member : child ∈ (program.arena.expr id).node.children) :
          plain (Interpreter.placeAt program left bound child)
            (Interpreter.placeAt program right bound child) := by
        apply inductionHypothesis
        rcases ends with stopped | ⟨closed, low⟩
        · exact .inl stopped
        · have before := closed.child_lt (Arena.has_of_child member) member
          exact .inr ⟨closed, by omega⟩
      unfold Interpreter.placeAt
      split
      · exact congruence.pure _
      · exact congruence.pure _
      · rename_i node
        rw [node] at below
        exact below List.mem_cons_self
      · rename_i node
        rw [node] at below
        apply congruence.bind (below List.mem_cons_self)
        intro place
        exact congruence.pure _
      · rename_i node
        rw [node] at below
        apply congruence.bind (below List.mem_cons_self)
        intro place
        apply congruence.bind (parts.evalIndex congruence _)
        intro index
        exact congruence.pure _
      · exact congruence.fail rfl

/-! ### Expressions without calls -/

theorem evalLiteral (literal : Literal) :
    plain (Interpreter.evalLiteral left literal)
      (Interpreter.evalLiteral right literal) := by
  cases literal with
  | array elements =>
      apply congruence.bind (parts.evalAll congruence elements)
      intro values
      exact congruence.pure _
  | object entries =>
      apply congruence.bind (parts.evalEntries congruence [] entries)
      intro fields
      exact congruence.pure _
  | _ => exact congruence.pure _

theorem initialFields (fields : Dict Value) (decls : List FieldDecl) :
    plain (Interpreter.initialFields left fields decls)
      (Interpreter.initialFields right fields decls) := by
  induction decls generalizing fields with
  | nil => exact congruence.pure fields
  | cons decl rest inductionHypothesis =>
      rw [Interpreter.initialFields_cons, Interpreter.initialFields_cons]
      have value : plain (Interpreter.fieldValue left decl)
          (Interpreter.fieldValue right decl) := by
        unfold Interpreter.fieldValue
        split
        · exact parts.expr _
        · exact congruence.pure _
      apply congruence.bind value
      intro value
      exact inductionHypothesis _

theorem evalBinary (operator : BinaryOperator) (first second : ExprId) :
    plain (Interpreter.evalBinary left operator first second)
      (Interpreter.evalBinary right operator first second) := by
  apply congruence.bind (parts.expr first)
  intro value
  split
  · split
    · exact parts.expr second
    · exact congruence.pure _
  · split
    · exact congruence.pure _
    · exact parts.expr second
  · apply congruence.bind (parts.expr second)
    intro other
    exact congruence.ofExcept (Value.withinLimits_binary _ _ _)

end PartsRelated

namespace StepsRelated

variable {program : Program} {leftCall rightCall : Interpreter.Invocation}
  (steps : StepsRelated program plain defining left right leftCall rightCall)
  (congruence : Congruence plain defining)

include steps congruence

/-! ### Calls -/

theorem callMethodBy (receiver : Value) (method : String)
    (arguments : List Value) :
    plain (Interpreter.callMethodBy program leftCall receiver method arguments)
      (Interpreter.callMethodBy program rightCall receiver method
        arguments) := by
  unfold Interpreter.callMethodBy
  split
  · dsimp only
    split
    · exact steps.call _ _ _
    · exact congruence.fail rfl
  · exact congruence.ofExcept (Interpreter.withinLimits_arrayMethod _ _ _)
  · exact congruence.fail rfl
  · exact congruence.fail rfl

/-- The receiver is stored back after the call, if it stands at a place. -/
theorem evalMethodCallBy {object : ExprId} (receives : program.Receives object)
    (method : String) (arguments : List ExprId) :
    plain
      (Interpreter.evalMethodCallBy program left leftCall object method
        arguments)
      (Interpreter.evalMethodCallBy program right rightCall object method
        arguments) := by
  apply congruence.bind (steps.expr object)
  intro receiver
  apply congruence.bind (steps.evalAll congruence arguments)
  intro values
  apply congruence.bind
    (steps.callMethodBy congruence receiver method values)
  intro result
  obtain ⟨value, after⟩ := result
  cases after with
  | none => exact congruence.pure _
  | some after =>
      apply congruence.bind (steps.settle object receives)
      intro found
      cases found with
      | none => exact congruence.pure _
      | some place =>
          apply congruence.bind (congruence.store place after)
          intro stored
          exact congruence.pure _

theorem evalCallBy {call callee : ExprId} {types : List TypeExpr}
    {arguments : List ExprId}
    (called : (program.arena.expr call).node = .call callee types arguments) :
    plain (Interpreter.evalCallBy program left leftCall callee arguments)
      (Interpreter.evalCallBy program right rightCall callee arguments) := by
  have values := steps.evalAll congruence arguments
  unfold Interpreter.evalCallBy
  split
  · split
    · apply congruence.bind (congruence.discard values)
      intro discarded
      exact congruence.pure _
    · apply congruence.bind (congruence.lookUp program _)
      intro function
      apply congruence.bind values
      intro values
      apply congruence.bind (steps.call function none _)
      intro result
      exact congruence.pure _
  · rename_i object property isMember
    have receives : program.Receives object :=
      ⟨call, callee, types, arguments, property, called, isMember⟩
    exact steps.evalMethodCallBy congruence receives _ _
  · exact congruence.fail rfl

theorem evalNewBy (type : TypeExpr) (arguments : List ExprId) :
    plain (Interpreter.evalNewBy program left leftCall type arguments)
      (Interpreter.evalNewBy program right rightCall type arguments) := by
  unfold Interpreter.evalNewBy
  dsimp only
  split
  · exact congruence.fail rfl
  · apply congruence.bind (steps.initialFields congruence [] _)
    intro fields
    apply congruence.bind (steps.evalAll congruence arguments)
    intro values
    split
    · apply congruence.bind (steps.call _ _ _)
      intro result
      exact congruence.pure _
    · split
      · exact congruence.pure _
      · exact congruence.fail rfl

/-! ### Steps -/

theorem evalAssign (operator : Option BinaryOperator)
    (target value : ExprId) :
    plain (Interpreter.evalAssign program left operator target value)
      (Interpreter.evalAssign program right operator target value) := by
  apply congruence.bind (steps.place target)
  intro place
  cases operator with
  | none =>
      apply congruence.bind (steps.expr value)
      intro result
      apply congruence.bind (congruence.store place result)
      intro stored
      exact congruence.pure _
  | some operator =>
      apply congruence.bind (congruence.load place)
      intro current
      apply congruence.bind (steps.expr value)
      intro operand
      apply congruence.bind
        (congruence.ofExcept (Value.withinLimits_binary _ _ _))
      intro result
      apply congruence.bind (congruence.store place result)
      intro stored
      exact congruence.pure _

theorem exprBody (id : ExprId) :
    plain (Interpreter.exprBody program left leftCall id)
      (Interpreter.exprBody program right rightCall id) := by
  unfold Interpreter.exprBody
  split
  case h_1 => exact steps.evalLiteral congruence _
  case h_2 => exact congruence.variableValue _
  case h_3 => exact congruence.variableValue _
  case h_4 => exact steps.evalNewBy congruence _ _
  case h_5 called => exact steps.evalCallBy congruence called
  case h_6 =>
    apply congruence.bind (steps.expr _)
    intro value
    exact congruence.ofExcept (Value.withinLimits_member _ _)
  case h_7 =>
    apply congruence.bind (steps.expr _)
    intro value
    apply congruence.bind (steps.evalIndex congruence _)
    intro index
    exact congruence.ofExcept (Value.withinLimits_element _ _)
  case h_8 => exact steps.evalBinary congruence _ _ _
  case h_9 =>
    apply congruence.bind (steps.expr _)
    intro value
    exact congruence.ofExcept (Value.withinLimits_unary _ _)
  case h_10 => exact steps.evalAssign congruence _ _ _
  case h_11 =>
    apply congruence.bind (steps.expr _)
    intro value
    split
    · exact steps.expr _
    · exact steps.expr _
  case h_12 =>
    apply congruence.bind (steps.expr _)
    intro value
    exact congruence.pure _
  case h_13 => exact steps.expr _

theorem stmtBody (id : StmtId) :
    defining (Interpreter.stmtBody program left id)
      (Interpreter.stmtBody program right id) := by
  unfold Interpreter.stmtBody
  split
  case h_1 => exact congruence.inScope (steps.execAll congruence _)
  case h_2 =>
    apply congruence.weaken
    apply congruence.bind (congruence.discard (steps.expr _))
    intro discarded
    exact congruence.pure _
  case h_3 =>
    apply congruence.bindDefining
      (congruence.weaken (steps.evalOptional congruence _))
    intro value
    apply congruence.bindDefining (congruence.define _ value)
    intro defined
    exact congruence.weaken (congruence.pure _)
  case h_4 =>
    apply congruence.bindDefining (congruence.weaken (steps.expr _))
    intro value
    split
    · exact steps.stmt _
    · split
      · exact steps.stmt _
      · exact congruence.weaken (congruence.pure _)
  case h_5 => exact steps.loop _ _
  case h_6 =>
    apply congruence.weaken
    apply congruence.bind (steps.evalOptional congruence _)
    intro value
    exact congruence.pure _
  case h_7 =>
    apply congruence.weaken
    apply congruence.bind (steps.expr _)
    intro value
    exact congruence.fail rfl
  case h_8 => exact congruence.weaken (congruence.pure _)

/-- One more step on each side. -/
theorem parts (ticks : plain tick tick) :
    PartsRelated plain defining
      ⟨fun id => tick >>= fun _ =>
          Interpreter.exprBody program left leftCall id,
        fun id => tick >>= fun _ => Interpreter.stmtBody program left id⟩
      ⟨fun id => tick >>= fun _ =>
          Interpreter.exprBody program right rightCall id,
        fun id => tick >>= fun _ =>
          Interpreter.stmtBody program right id⟩ := by
  constructor
  · intro id
    exact congruence.bind ticks fun _ => steps.exprBody congruence id
  · intro id
    exact congruence.bindDefining (congruence.weaken ticks)
      fun _ => steps.stmtBody congruence id

end StepsRelated

/-! ## Calls by the host -/

/-- Calls by the host are related if calls are. -/
theorem Congruence.hostCall (congruence : Congruence plain defining)
    {program : Program} (leftCall rightCall : Interpreter.Invocation)
    (call : ∀ function receiver arguments,
      plain (leftCall function receiver arguments)
        (rightCall function receiver arguments))
    (name : String) (arguments : List (Option Value)) :
    plain (Interpreter.hostCall program leftCall name arguments)
      (Interpreter.hostCall program rightCall name arguments) := by
  apply congruence.bind (congruence.lookUp program name)
  intro function
  apply congruence.bind (call function none arguments)
  intro result
  exact congruence.pure _

theorem Congruence.hostCallWithMask (congruence : Congruence plain defining)
    {program : Program} (leftCall rightCall : Interpreter.Invocation)
    (call : ∀ function receiver arguments,
      plain (leftCall function receiver arguments)
        (rightCall function receiver arguments))
    (name : String) (arguments : List Value) (mask : UInt64) :
    plain (Interpreter.hostCallWithMask program leftCall name arguments mask)
      (Interpreter.hostCallWithMask program rightCall name arguments
        mask) := by
  apply congruence.bind (congruence.lookUp program name)
  intro function
  split
  · apply congruence.bind (call function none _)
    intro result
    exact congruence.pure _
  · exact congruence.fail rfl

end

end PluginSurface
