import PluginSurface.Eval.Machine
import PluginSurface.Syntax.Program

/-!
Evaluating programs. The steps for expressions and statements are written over
the evaluation of their parts; `evalExpr` and `execStmt` close the recursion
with a bound on how deep it goes, which the gas limit provides.
-/

namespace PluginSurface

namespace Program

/-- The function that a call by name reaches: the first one that goes by the
name, or else the first one declared under it. -/
def callee? (program : Program) (name : String) : Option FunctionDecl :=
  (program.function? name).or <|
    program.functions.find? fun function => function.name.text == name

end Program

/-- The evaluation of the parts of a program. -/
structure Interpreter where
  expr : ExprId → Eval Value
  stmt : StmtId → Eval Flow

namespace Interpreter

open Eval

/-- The name of the variable that holds a method's receiver. -/
def receiverName : String :=
  "this"

section

variable (program : Program) (run : Interpreter)

/-! ## Lists of parts -/

def evalAll : List ExprId → Eval (List Value)
  | [] => return []
  | id :: rest => do
      let first ← run.expr id
      let rest ← evalAll rest
      return first :: rest

/-- The fields of an object literal; of several with one name the last one
stays. -/
def evalEntries (fields : Dict Value) :
    List (Name × ExprId) → Eval (Dict Value)
  | [] => return fields
  | (name, id) :: rest => do
      let value ← run.expr id
      evalEntries (fields.insert name.text value) rest

def execAll : List StmtId → Eval Flow
  | [] => return .normal
  | id :: rest => do
      match ← run.stmt id with
      | .return value => return .return value
      | .normal => execAll rest

/-! ## Calls -/

/-- The function that a call by name reaches. -/
def lookUp (name : String) : Eval FunctionDecl :=
  match program.callee? name with
  | some function => return function
  | none => fail (.unknownFunction name)

/-- Binds the parameters of a function in order. A parameter without an
argument takes its default, which may refer to the parameters before it. -/
def bindParams (function : FunctionDecl) :
    List Param → List (Option Value) → Eval Unit
  | [], _ => return ()
  | param :: params, arguments => do
      let value ←
        match arguments.head?.join, param.initializer with
        | some value, _ => pure value
        | none, some initializer => run.expr initializer
        | none, none =>
            fail (.missingArgument function.resolvedName param.name.text)
      define param.name.text value
      bindParams function params arguments.tail

/-- Runs the body of a function in the frame of its call. -/
def runBody (function : FunctionDecl) (body : Block)
    (arguments : List (Option Value)) : Eval Value := do
  bindParams run function function.params arguments
  match ← execAll run body.statements with
  | .return value => return value
  | .normal => return .null

/-- Calls a function. A method call also gives its receiver as it is after the
call. -/
def invoke (function : FunctionDecl) (receiver : Option Value)
    (arguments : List (Option Value)) : Eval (Value × Option Value) := do
  if function.params.length < arguments.length then
    fail (.arityMismatch function.resolvedName function.params.length
      arguments.length)
  else
    match function.body with
    | none => fail (.hostImport function.resolvedName)
    | some body =>
        if Machine.depthLimit ≤ (← inspect Machine.depth) then
          fail .stackOverflow
        else
          inCall do
            match receiver with
            | none =>
                let value ← runBody run function body arguments
                return (value, none)
            | some receiver =>
                define receiverName receiver
                let value ← runBody run function body arguments
                let after ← inspect fun machine =>
                  machine.environment.find? receiverName
                return (value, after)

/-- The methods of arrays. `push` also gives the array as it is after it. -/
def arrayMethod (items : List Value) (method : String)
    (arguments : List Value) : Except Fault (Value × Option Value) :=
  let wanted := arguments.head?.getD .null
  match method with
  | "push" =>
      let items := items ++ arguments
      .ok (.int (Int64.ofNat items.length), some (.array items))
  | "includes" =>
      .ok (.bool (items.any fun item => item.looselyEqual wanted), none)
  | "indexOf" =>
      match items.findIdx? fun item => item.looselyEqual wanted with
      | some index => .ok (.int (Int64.ofNat index), none)
      | none => .ok (.int (-1), none)
  | _ => .error (.unknownMethod "array" method)

def callMethod (receiver : Value) (method : String) (arguments : List Value) :
    Eval (Value × Option Value) :=
  match receiver with
  | .object (some className) _ =>
      let methods :=
        match program.class? className with
        | some decl => decl.methods
        | none => []
      match methods.find? fun decl => decl.name.text == method with
      | some decl => invoke run decl (some receiver) (arguments.map some)
      | none => fail (.unknownMethod className method)
  | .array items => ofExcept (arrayMethod items method arguments)
  | .null => fail (.nullAccess (.call method))
  | _ => fail (.unknownMethod receiver.typeName method)

/-! ## Places -/

def evalIndex (id : ExprId) : Eval Int64 := do
  let value ← run.expr id
  match value.int? with
  | some index => return index
  | none => fail (.misuse (.indexNotInteger value.typeName))

/-- The place that an expression stands for, and the evaluation of its index
expressions on the way. -/
def placeAt : Nat → ExprId → Eval Place
  | 0, _ => outOfSteps
  | bound + 1, id =>
      match (program.arena.expr id).node with
      | .identifier name => return ⟨name, []⟩
      | .this => return ⟨receiverName, []⟩
      | .paren inner => placeAt bound inner
      | .member object property => do
          let place ← placeAt bound object
          return ⟨place.root, place.path ++ [.field property.text]⟩
      | .index object index => do
          let place ← placeAt bound object
          let index ← evalIndex run index
          return ⟨place.root, place.path ++ [.index index]⟩
      | _ => fail (.misuse .notAssignable)

def place (id : ExprId) : Eval Place :=
  placeAt program run (id.index + 1) id

/-! ## Expressions -/

def evalLiteral : Literal → Eval Value
  | .null => return .null
  | .bool value => return .bool value
  | .integer value _ => return .int value.toInt64
  | .float value _ => return .float value
  | .string content => return .string content
  | .array elements => do
      let values ← evalAll run elements
      return .array values
  | .object entries => do
      let fields ← evalEntries run [] entries
      return .object none fields

/-- A method call. A receiver that the call has changed is stored back if it
stands at a place. -/
def evalMethodCall (object : ExprId) (method : String)
    (arguments : List ExprId) : Eval Value := do
  let receiver ← run.expr object
  let values ← evalAll run arguments
  let (result, after) ← callMethod program run receiver method values
  match after with
  | none => return result
  | some after =>
      match ← attempt (place program run object) with
      | some place =>
          store place after
          return result
      | none => return result

/-- A call. The constructor of a base class is not run. -/
def evalCall (callee : ExprId) (arguments : List ExprId) : Eval Value :=
  match (program.arena.expr callee).node with
  | .identifier name => do
      if name = "super" then
        discard (evalAll run arguments)
        return .null
      else
        let function ← lookUp program name
        let values ← evalAll run arguments
        let (result, _) ← invoke run function none (values.map some)
        return result
  | .member object property =>
      evalMethodCall program run object property.text arguments
  | _ => fail (.misuse .notCallable)

/-- The fields of a new instance before its constructor runs. -/
def initialFields (fields : Dict Value) : List FieldDecl → Eval (Dict Value)
  | [] => return fields
  | field :: rest => do
      let value ←
        match field.initializer with
        | some initializer => run.expr initializer
        | none => pure (Value.zeroOf field.type)
      initialFields (fields.insert field.name.text value) rest

def evalNew (type : TypeExpr) (arguments : List ExprId) : Eval Value := do
  let name := type.baseName?.getD ""
  match program.class? name with
  | none => fail (.unknownClass type.text)
  | some decl =>
      let fields ← initialFields run [] decl.fields
      let created := Value.object (some name) fields
      let values ← evalAll run arguments
      match decl.methods.find? fun method =>
          method.name.text == "constructor" with
      | some constructor =>
          let (_, after) ←
            invoke run constructor (some created) (values.map some)
          return after.getD created
      | none =>
          if values.isEmpty then return created
          else fail (.arityMismatch (name ++ ".constructor") 0 values.length)

/-- A binary operator. The logical ones leave their right operand alone when
the left one decides. -/
def evalBinary (operator : BinaryOperator) (left right : ExprId) :
    Eval Value := do
  let leftValue ← run.expr left
  match operator with
  | .and => if leftValue.isTruthy then run.expr right else return leftValue
  | .or => if leftValue.isTruthy then return leftValue else run.expr right
  | _ =>
      let rightValue ← run.expr right
      ofExcept (Value.binary operator leftValue rightValue)

/-- An assignment. The place is determined first, and for a compound
assignment also its value, before the right side is evaluated. -/
def evalAssign (operator : Option BinaryOperator) (target value : ExprId) :
    Eval Value := do
  let place ← place program run target
  match operator with
  | none =>
      let result ← run.expr value
      store place result
      return result
  | some operator =>
      let current ← load place
      let operand ← run.expr value
      let result ← ofExcept (Value.binary operator current operand)
      store place result
      return result

def exprStep (id : ExprId) : Eval Value := do
  tick
  match (program.arena.expr id).node with
  | .literal literal => evalLiteral run literal
  | .identifier name => variableValue name
  | .this => variableValue receiverName
  | .new type arguments => evalNew program run type arguments
  | .call callee _ arguments => evalCall program run callee arguments
  | .member object property => do
      let value ← run.expr object
      ofExcept (value.member property.text)
  | .index object index => do
      let value ← run.expr object
      let index ← evalIndex run index
      ofExcept (value.element index)
  | .binary operator left right => evalBinary run operator left right
  | .unary operator operand => do
      let value ← run.expr operand
      ofExcept (Value.unary operator value)
  | .assign operator target value =>
      evalAssign program run operator target value
  | .conditional condition whenTrue whenFalse => do
      if (← run.expr condition).isTruthy then run.expr whenTrue
      else run.expr whenFalse
  | .cast operand type => do
      let value ← run.expr operand
      return value.cast type
  | .paren inner => run.expr inner

/-! ## Statements -/

/-- The value of an optional expression, null without one. -/
def evalOptional : Option ExprId → Eval Value
  | some id => run.expr id
  | none => return .null

def stmtStep (id : StmtId) : Eval Flow := do
  tick
  match (program.arena.stmt id).node with
  | .block block => inScope (execAll run block.statements)
  | .expression value => do
      discard (run.expr value)
      return .normal
  | .binding _ name _ value => do
      let value ← evalOptional run value
      define name.text value
      return .normal
  | .branch condition whenTrue whenFalse => do
      if (← run.expr condition).isTruthy then run.stmt whenTrue
      else
        match whenFalse with
        | some whenFalse => run.stmt whenFalse
        | none => return .normal
  | .loop condition body => do
      let bound ← inspect Machine.stepBound
      repeatWhile (run.expr condition) (run.stmt body) bound
  | .return value => do
      let value ← evalOptional run value
      return .return value
  | .throw value => do
      let value ← run.expr value
      fail (.thrown value)
  | .empty => return .normal

end

end Interpreter

mutual

/-- Evaluates an expression with a bound on the depth of the evaluation. -/
def evalExpr (program : Program) : Nat → ExprId → Eval Value
  | 0, _ => Eval.outOfSteps
  | bound + 1, id =>
      Interpreter.exprStep program
        ⟨evalExpr program bound, execStmt program bound⟩ id

/-- Runs a statement with a bound on the depth of the evaluation. -/
def execStmt (program : Program) : Nat → StmtId → Eval Flow
  | 0, _ => Eval.outOfSteps
  | bound + 1, id =>
      Interpreter.stmtStep program
        ⟨evalExpr program bound, execStmt program bound⟩ id

end

/-- The evaluation of the parts of a program with a bound on its depth. -/
def interpreter (program : Program) (bound : Nat) : Interpreter :=
  ⟨evalExpr program bound, execStmt program bound⟩

/-! ## Evaluations -/

abbrev Outcome (Result : Type) :=
  Except Fault Result × Machine

namespace Machine

variable {Result : Type}

/-- Runs a computation with the bound that the gas limit provides. -/
def run (machine : Machine) (computation : Nat → Eval Result) :
    Outcome Result :=
  (computation machine.stepBound machine).getD (.error .gasExhausted, machine)

/-- The value of an expression of a program. -/
def eval (program : Program) (machine : Machine) (id : ExprId) :
    Outcome Value :=
  machine.run fun bound => evalExpr program bound id

/-- Calls a function with an argument or none for each parameter. -/
def call (program : Program) (machine : Machine) (name : String)
    (arguments : List (Option Value)) : Outcome Value :=
  machine.run fun bound => do
    let function ← Interpreter.lookUp program name
    let (value, _) ←
      (interpreter program bound).invoke function none arguments
    return value

/-- Whether the last parameter of a function is the mask. -/
def takesMask (function : FunctionDecl) : Bool :=
  match function.params.getLast? with
  | some param => param.name.text == maskParameter
  | none => false

/-- Calls a function with an argument for each parameter of its own and the
mask of those that were supplied. -/
def callWithMask (program : Program) (machine : Machine) (name : String)
    (arguments : List Value) (mask : UInt64) : Outcome Value :=
  machine.run fun bound => do
    let function ← Interpreter.lookUp program name
    if takesMask function then
      let values := arguments ++ [.int mask.toInt64]
      let (value, _) ←
        (interpreter program bound).invoke function none (values.map some)
      return value
    else Eval.fail (.misuse (.maskNotTaken name))

/-- Defines the global variables that some items declare, in order. -/
def defineGlobals (program : Program) (run : Interpreter) :
    List Item → Eval Unit
  | [] => return ()
  | .variable decl :: rest => do
      let value ← Interpreter.evalOptional run decl.value
      Eval.define decl.name.text value
      defineGlobals program run rest
  | _ :: rest => defineGlobals program run rest

/-- The state after the global variables of a program are defined. -/
def start (program : Program) (gasLimit : Nat) : Except Fault Machine :=
  let outcome := (initial gasLimit).run fun bound =>
    defineGlobals program (interpreter program bound) program.items
  outcome.1.map fun _ => outcome.2

end Machine

end PluginSurface
