import PluginSurface.Eval.Environment
import PluginSurface.Eval.Fault

/-!
Places: a variable and the fields and elements below it. Loading follows the
steps of a place; storing replaces the value at its end.
-/

namespace PluginSurface

/-- A step into a value. -/
inductive Step where
  | field (name : String)
  | index (index : Int64)
deriving DecidableEq, Inhabited

/-- A variable and the steps below it. -/
structure Place where
  root : String
  path : List Step
deriving DecidableEq, Inhabited

namespace Value

/-- The number of UTF-16 units of a text. -/
def unitCount (text : String) : Nat :=
  text.toList.foldl
    (fun count char => count + if char.toNat < 0x10000 then 1 else 2) 0

/-- A field of a value. Arrays and strings have a `length`. -/
def member (value : Value) (name : String) : Except Fault Value :=
  match value with
  | object className fields =>
      match Dict.find? fields name with
      | some value => .ok value
      | none => .error (.misuse (.noField (className.getD "object") name))
  | array items =>
      if name = "length" then .ok (.int (Int64.ofNat items.length))
      else .error (.misuse (.noField value.typeName name))
  | string text =>
      if name = "length" then .ok (.int (Int64.ofNat (unitCount text)))
      else .error (.misuse (.noField value.typeName name))
  | null => .error (.nullAccess (.member name))
  | _ => .error (.misuse (.noField value.typeName name))

/-- The member of a list with a signed index. -/
def itemAt? {Item : Type} (items : List Item) (index : Int64) : Option Item :=
  if index.toInt < 0 then none else items[index.toInt.toNat]?

/-- An element of an array or a character of a string. -/
def element (value : Value) (index : Int64) : Except Fault Value :=
  match value with
  | array items =>
      match itemAt? items index with
      | some item => .ok item
      | none => .error (.indexOutOfBounds index.toInt items.length)
  | string text =>
      match itemAt? text.toList index with
      | some char => .ok (.string (String.singleton char))
      | none => .error (.indexOutOfBounds index.toInt text.toList.length)
  | null => .error (.nullAccess (.index index.toInt))
  | _ => .error (.misuse (.notIndexable value.typeName))

def follow (value : Value) : Step → Except Fault Value
  | .field name => value.member name
  | .index index => value.element index

/-- The value at the end of a path. -/
def followAll (value : Value) : List Step → Except Fault Value
  | [] => .ok value
  | step :: rest => do
      let inner ← value.follow step
      inner.followAll rest

/-- Replaces the value at the end of a path, and tells why the path has no end
if it has none. A field that is missing on the way is created as null, and stays
when the path fails further on. -/
def assign (target : Value) (path : List Step) (value : Value) :
    Option Fault × Value :=
  match path with
  | [] => (none, value)
  | step :: rest =>
      match target, step with
      | object className fields, .field name =>
          let inner := (Dict.find? fields name).getD .null
          let (fault, inner) := inner.assign rest value
          (fault, .object className (Dict.insert fields name inner))
      | array items, .index index =>
          match itemAt? items index with
          | some inner =>
              let (fault, inner) := inner.assign rest value
              (fault, .array (items.set index.toInt.toNat inner))
          | none =>
              (some (.indexOutOfBounds index.toInt items.length), target)
      | null, _ => (some (.nullAccess .assign), target)
      | _, _ => (some (.misuse (.assignInto target.typeName)), target)

end Value

namespace Environment

def load (environment : Environment) (place : Place) : Except Fault Value :=
  match environment.find? place.root with
  | some value => value.followAll place.path
  | none => .error (.undefinedVariable place.root)

/-- Stores a value at a place, and tells why it cannot be stored if it
cannot. -/
def store (environment : Environment) (place : Place) (value : Value) :
    Option Fault × Environment :=
  match environment.find? place.root with
  | some target =>
      let (fault, target) := target.assign place.path value
      (fault, environment.set place.root target)
  | none => (some (.undefinedVariable place.root), environment)

end Environment

end PluginSurface
