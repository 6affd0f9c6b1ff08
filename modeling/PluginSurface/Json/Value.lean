import PluginSurface.Dict

/-!
Document values. Whole numbers keep their exact value; all other numbers are
doubles. An object is the list of its members in the order they are written.
-/

namespace PluginSurface

/-- A number of a document. -/
inductive JsonNumber where
  | whole (value : Int)
  | real (value : Float)
deriving Inhabited

/-- A document value. -/
inductive Json where
  | null
  | bool (value : Bool)
  | number (value : JsonNumber)
  | string (value : String)
  | array (items : List Json)
  | object (members : List (String × Json))
deriving Inhabited

namespace JsonNumber

/-- Whole numbers are equal by value and doubles as doubles compare; a whole
number never equals a double. -/
def same : JsonNumber → JsonNumber → Bool
  | .whole left, .whole right => left == right
  | .real left, .real right => left == right
  | _, _ => false

end JsonNumber

namespace Json

def ofNat (value : Nat) : Json :=
  .number (.whole value)

def ofInt (value : Int) : Json :=
  .number (.whole value)

mutual

/-- Equality of values, number by number and member by member. -/
def same : Json → Json → Bool
  | .null, .null => true
  | .bool left, .bool right => left == right
  | .number left, .number right => left.same right
  | .string left, .string right => left == right
  | .array left, .array right => sameItems left right
  | .object left, .object right => sameMembers left right
  | _, _ => false

def sameItems : List Json → List Json → Bool
  | [], [] => true
  | left :: lefts, right :: rights => left.same right && sameItems lefts rights
  | _, _ => false

def sameMembers :
    List (String × Json) → List (String × Json) → Bool
  | [], [] => true
  | (leftKey, left) :: lefts, (rightKey, right) :: rights =>
      leftKey == rightKey && left.same right && sameMembers lefts rights
  | _, _ => false

end

instance : BEq Json := ⟨same⟩

/-- The member of an object under a key. -/
def member? : Json → String → Option Json
  | .object members, key => List.lookup key members
  | _, _ => none

end Json

end PluginSurface
