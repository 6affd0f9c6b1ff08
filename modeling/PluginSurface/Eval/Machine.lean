import PluginSurface.Eval.Operators
import PluginSurface.Eval.Place

/-!
The state of an evaluation and its elementary steps. Every statement and every
expression costs one unit of gas; an evaluation stops when more gas is used than
its limit allows.
-/

namespace PluginSurface

/-- The state of an evaluation. -/
structure Machine where
  environment : Environment
  /-- The gas that was used. -/
  gas : Nat
  gasLimit : Nat
  /-- How many calls are open. -/
  depth : Nat
deriving Inhabited

namespace Machine

/-- How many calls may be open at a time. -/
def depthLimit : Nat :=
  64

/-- The gas limit of an evaluation that sets none. -/
def defaultGasLimit : Nat :=
  1000000

def initial (gasLimit : Nat) : Machine :=
  ⟨.empty, 0, gasLimit, 0⟩

/-- A bound for how deep evaluation can nest: every level uses gas, and the
level that uses up the gas is the last one. -/
def stepBound (machine : Machine) : Nat :=
  machine.gasLimit - machine.gas + 2

end Machine

/-- How a statement ends. -/
inductive Flow where
  | normal
  | return (value : Value)
deriving Inhabited

/-- A computation on the state of an evaluation. It gives a result or a fault,
or nothing at all if the bound on its steps was too small. -/
def Eval (Result : Type) :=
  Machine → Option (Except Fault Result × Machine)

namespace Eval

variable {Result Next : Type}

/-- Goes on with the result of a computation, unless it stopped. -/
@[inline]
def andThen (first : Eval Result) (next : Result → Eval Next) : Eval Next :=
  fun machine =>
    match first machine with
    | none => none
    | some (.error fault, machine) => some (.error fault, machine)
    | some (.ok result, machine) => next result machine

instance : Monad Eval where
  pure result machine := some (.ok result, machine)
  bind := andThen

def fail (fault : Fault) : Eval Result :=
  fun machine => some (.error fault, machine)

/-- The bound on the steps was too small. -/
def outOfSteps : Eval Result :=
  fun _ => none

def ofExcept (outcome : Except Fault Result) : Eval Result :=
  fun machine => some (outcome, machine)

def inspect (view : Machine → Result) : Eval Result :=
  fun machine => some (.ok (view machine), machine)

def updateEnvironment (update : Environment → Environment) : Eval Unit :=
  fun machine =>
    some (.ok (),
      { machine with environment := update machine.environment })

def tick : Eval Unit :=
  fun machine =>
    let machine := { machine with gas := machine.gas + 1 }
    if machine.gasLimit < machine.gas then some (.error .gasExhausted, machine)
    else some (.ok (), machine)

def define (name : String) (value : Value) : Eval Unit :=
  updateEnvironment fun environment => environment.define name value

def variableValue (name : String) : Eval Value :=
  fun machine =>
    match machine.environment.find? name with
    | some value => some (.ok value, machine)
    | none => some (.error (.undefinedVariable name), machine)

def load (place : Place) : Eval Value :=
  fun machine => some (machine.environment.load place, machine)

/-- Stores a value. What a failing store has changed stays changed. -/
def store (place : Place) (value : Value) : Eval Unit :=
  fun machine =>
    let (fault, environment) := machine.environment.store place value
    let machine := { machine with environment := environment }
    match fault with
    | some fault => some (.error fault, machine)
    | none => some (.ok (), machine)

/-- Runs a computation in a scope of its own, which is closed again however
the computation ends. -/
def inScope (body : Eval Result) : Eval Result :=
  fun machine =>
    match body { machine with environment := machine.environment.push } with
    | none => none
    | some (outcome, machine) =>
        some (outcome,
          { machine with environment := machine.environment.pop })

/-- Runs a computation as a call: one level deeper, with a frame of its own.
The caller's frame and level come back however the computation ends. -/
def inCall (body : Eval Result) : Eval Result :=
  fun machine =>
    let frame := machine.environment.scopes
    let callee :=
      { machine with
        environment := machine.environment.entered
        depth := machine.depth + 1 }
    match body callee with
    | none => none
    | some (outcome, after) =>
        some (outcome,
          { after with
            environment := after.environment.restored frame
            depth := machine.depth })

/-- Gives no result in place of a fault. -/
def attempt (body : Eval Result) : Eval (Option Result) :=
  fun machine =>
    match body machine with
    | none => none
    | some (.ok result, machine) => some (.ok (some result), machine)
    | some (.error _, machine) => some (.ok none, machine)

/-- Repeats a body as long as a condition holds and the body does not return.
The first argument bounds the number of rounds. -/
def repeatWhile (condition : Eval Value) (body : Eval Flow) : Nat → Eval Flow
  | 0, _ => none
  | bound + 1, machine =>
      match condition machine with
      | none => none
      | some (.error fault, machine) => some (.error fault, machine)
      | some (.ok value, machine) =>
          if value.isTruthy then
            match body machine with
            | none => none
            | some (.error fault, machine) => some (.error fault, machine)
            | some (.ok (.return value), machine) =>
                some (.ok (.return value), machine)
            | some (.ok .normal, machine) =>
                repeatWhile condition body bound machine
          else some (.ok .normal, machine)

end Eval

end PluginSurface
