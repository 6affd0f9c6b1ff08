import PluginSurface.Json.Value
import PluginSurface.Number.Layout

/-!
Runtime values. Integers of every width are 64-bit signed numbers and numbers
with a fraction are doubles. Arrays and objects are values too: an assignment
copies them.
-/

namespace PluginSurface

/-- A runtime value. An object of a class knows the name of its class, and its
fields are in name order. -/
inductive Value where
  | null
  | bool (value : Bool)
  | int (value : Int64)
  | float (value : Float)
  | string (value : String)
  | array (items : List Value)
  | object (className : Option String) (fields : List (String × Value))
deriving Inhabited

namespace Value

/-- The name of the kind of a value. -/
def typeName : Value → String
  | null => "null"
  | bool _ => "bool"
  | int _ => "integer"
  | float _ => "float"
  | string _ => "string"
  | array _ => "array"
  | object _ _ => "object"

def isTruthy : Value → Bool
  | null => false
  | bool value => value
  | int value => value != 0
  | float value => value != 0.0 && !value.isNaN
  | string value => !value.isEmpty
  | array _ | object _ _ => true

def int? : Value → Option Int64
  | int value => some value
  | _ => none

mutual

/-- Equality of values of the same kind, part by part. -/
def same : Value → Value → Bool
  | null, null => true
  | bool left, bool right => left == right
  | int left, int right => left == right
  | float left, float right => left == right
  | string left, string right => left == right
  | array left, array right => sameItems left right
  | object leftClass left, object rightClass right =>
      leftClass == rightClass && sameFields left right
  | _, _ => false

def sameItems : List Value → List Value → Bool
  | [], [] => true
  | left :: lefts, right :: rights => left.same right && sameItems lefts rights
  | _, _ => false

def sameFields : List (String × Value) → List (String × Value) → Bool
  | [], [] => true
  | (leftName, left) :: lefts, (rightName, right) :: rights =>
      leftName == rightName && left.same right && sameFields lefts rights
  | _, _ => false

end

/-- Equality as programs see it: an integer and a float are compared as
doubles. -/
def looselyEqual : Value → Value → Bool
  | int left, float right => Binary64.ofInt left.toInt == right
  | float left, int right => left == Binary64.ofInt right.toInt
  | left, right => left.same right

mutual

def text : Value → String
  | null => "null"
  | bool true => "true"
  | bool false => "false"
  | int value => toString value.toInt
  | float value => NumberLayout.display.render value
  | string value => value
  | array items => "[" ++ String.intercalate ", " (itemTexts items) ++ "]"
  | object className fields =>
      (match className with
        | some name => name ++ " "
        | none => "") ++
        "\x7b" ++ String.intercalate "," (fieldTexts fields) ++ " \x7d"

def itemTexts : List Value → List String
  | [] => []
  | item :: rest => item.text :: itemTexts rest

def fieldTexts : List (String × Value) → List String
  | [] => []
  | (name, value) :: rest =>
      (" " ++ name ++ ": " ++ value.text) :: fieldTexts rest

end

mutual

/-- The value as a document, which has no form for infinities and for what is
not a number. -/
def json? : Value → Option Json
  | null => some .null
  | bool value => some (.bool value)
  | int value => some (Json.ofInt value.toInt)
  | float value =>
      if value.isFinite then some (.number (.real value)) else none
  | string value => some (.string value)
  | array items => (jsonItems? items).map .array
  | object _ fields => (jsonFields? fields).map .object

def jsonItems? : List Value → Option (List Json)
  | [] => some []
  | item :: rest => do
      let item ← item.json?
      let rest ← jsonItems? rest
      some (item :: rest)

def jsonFields? : List (String × Value) → Option (List (String × Json))
  | [] => some []
  | (name, value) :: rest => do
      let value ← value.json?
      let rest ← jsonFields? rest
      some ((name, value) :: rest)

end

end Value

end PluginSurface
