import PluginSurface.Syntax.Tree
import PluginSurface.Json.Value
import PluginSurface.Number.Layout

/-!
What a default value looks like from outside the program: a short text for
people and, where the default is made of literals only, a document value.
-/

namespace PluginSurface

/-- The forms of defaults that are told apart. -/
inductive DefaultLiteral where
  | null
  | bool (value : Bool)
  | integer (value : Int)
  | float (value : Float)
  | string (content : String)
  | array (length : Nat)
  | object (length : Nat)
  | new (argumentCount : Nat)
  | other

namespace DefaultLiteral

def leastInteger : Int :=
  -9223372036854775808

/-- A number with the opposite sign. A whole number below the least one is of
no told form. -/
def negated : DefaultLiteral → DefaultLiteral
  | integer value => if leastInteger ≤ -value then integer (-value) else other
  | float value => float (-value)
  | _ => other

/-- The form of a default. A minus sign before a number belongs to it. -/
def ofTree : ExprTree → DefaultLiteral
  | .null => null
  | .bool value => bool value
  | .integer value _ => integer value.toNat
  | .float value _ => float value
  | .string content => string content
  | .array elements => array elements.length
  | .object entries => object entries.length
  | .unary .negate operand => (ofTree operand).negated
  | .new _ arguments => new arguments.length
  | _ => other

def ellipsis : String :=
  "..."

def cutNumber (text : String) : String :=
  if text.toList.length ≤ 6 then text
  else String.ofList (text.toList.take 6) ++ ellipsis

/-- The first six characters of a string, between quotes. -/
def cutString (content : String) : String :=
  if content.toList.length ≤ 6 then "\"" ++ content ++ "\""
  else "\"" ++ String.ofList (content.toList.take 6) ++ ellipsis ++ "\""

def text : DefaultLiteral → String
  | null => "null"
  | bool value => if value then "true" else "false"
  | integer value => cutNumber (toString value)
  | float value => cutNumber (NumberLayout.signature.render value)
  | string content => cutString content
  | array 0 => "[]"
  | array _ => "[...]"
  | object 0 | new 0 => "\x7b\x7d"
  | object _ | new _ => "\x7b...\x7d"
  | other => ellipsis

end DefaultLiteral

namespace ExprTree

def isNumber : ExprTree → Bool
  | integer _ _ | float _ _ => true
  | _ => false

def finiteJson? (value : Float) : Option Json :=
  if value.isFinite then some (.number (.real value)) else none

mutual

/-- The document value of an expression that is made of literals only. -/
def json? : ExprTree → Option Json
  | null => some .null
  | bool value => some (.bool value)
  | integer value _ => some (Json.ofNat value.toNat)
  | float value _ => finiteJson? value
  | string content => some (.string content)
  | array elements => (jsonItems? elements).map .array
  | object entries =>
      (jsonEntries? entries).map fun members =>
        .object (Dict.ofEntries members)
  | unary .negate operand =>
      if operand.isNumber then
        match (DefaultLiteral.ofTree operand).negated with
        | .integer value => some (Json.ofInt value)
        | .float value => finiteJson? value
        | _ => none
      else none
  | _ => none

def jsonItems? : List ExprTree → Option (List Json)
  | [] => some []
  | item :: rest => do
      let item ← item.json?
      let rest ← jsonItems? rest
      some (item :: rest)

def jsonEntries? : List (String × ExprTree) → Option (List (String × Json))
  | [] => some []
  | (key, value) :: rest => do
      let value ← value.json?
      let rest ← jsonEntries? rest
      some ((key, value) :: rest)

end

end ExprTree

end PluginSurface
