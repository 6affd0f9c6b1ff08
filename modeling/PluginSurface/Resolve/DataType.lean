import PluginSurface.Resolve.ModuleScope
import PluginSurface.Surface.Signature

/-!
Types once their names are resolved: how they are shown, the paths they have and
the room they take.
-/

namespace PluginSurface

/-- Types that are held in place. -/
inductive Primitive where
  | bool | i8 | u8 | i16 | u16 | i32 | u32 | i64 | u64 | f32 | f64
  | isize | usize | void
deriving DecidableEq, Inhabited

namespace Primitive

def all : List Primitive :=
  [bool, i8, u8, i16, u16, i32, u32, i64, u64, f32, f64, isize, usize, void]

def text : Primitive → String
  | bool => "bool"
  | i8 => "i8"
  | u8 => "u8"
  | i16 => "i16"
  | u16 => "u16"
  | i32 => "i32"
  | u32 => "u32"
  | i64 => "i64"
  | u64 => "u64"
  | f32 => "f32"
  | f64 => "f64"
  | isize => "isize"
  | usize => "usize"
  | void => "void"

def ofText? (name : String) : Option Primitive :=
  all.find? fun primitive => primitive.text == name

def size : Primitive → Nat
  | void => 0
  | bool | i8 | u8 => 1
  | i16 | u16 => 2
  | i32 | u32 | f32 | isize | usize => 4
  | i64 | u64 | f64 => 8

end Primitive

/-- A resolved type. A class is known by the path it comes from. -/
inductive DataType where
  | primitive (kind : Primitive)
  | string
  | date
  | array (element : DataType)
  | map (key value : DataType)
  | class (path : String)
  | nullable (inner : DataType)
deriving DecidableEq, Inhabited

namespace DataType

/-- The path a type comes from, with those of the types it is made of. -/
def path : DataType → String
  | .primitive kind => kind.text
  | .string => "~lib/string/String"
  | .date => "~lib/date/Date"
  | .array element => "~lib/array/Array<" ++ element.path ++ ">"
  | .map key value => "~lib/map/Map<" ++ key.path ++ "," ++ value.path ++ ">"
  | .class path => path
  | .nullable inner => inner.path ++ "|null"

def isPrimitive : DataType → Bool
  | .primitive _ => true
  | _ => false

def isNullable : DataType → Bool
  | nullable _ => true
  | _ => false

/-- The name a type is shown under. An array of a nullable type has the nullable
type in parentheses. -/
def text : DataType → String
  | .primitive kind => kind.text
  | .string => "string"
  | .date => "Date"
  | .array element =>
      if element.isNullable then "(" ++ element.text ++ ")[]"
      else element.text ++ "[]"
  | .map key value => "Map<" ++ key.text ++ ", " ++ value.text ++ ">"
  | .class path => ModulePath.lastSegment path
  | .nullable inner => inner.text ++ " | null"

def ref (type : DataType) : TypeRef :=
  ⟨type.text, type.path⟩

/-- The types that stand directly inside a type, in the order they are
written. -/
def children : DataType → List DataType
  | .array element => [element]
  | .map key value => [key, value]
  | .nullable inner => [inner]
  | _ => []

/-- The number of types a type is made of. -/
def weight : DataType → Nat
  | .array element => element.weight + 1
  | .map key value => key.weight + value.weight + 1
  | .nullable inner => inner.weight + 1
  | _ => 1

/-- The number of types that several types are made of. -/
def totalWeight : List DataType → Nat
  | [] => 0
  | type :: rest => type.weight + totalWeight rest

theorem weight_pos (type : DataType) : 0 < type.weight := by
  cases type <;> simp only [weight] <;> omega

theorem totalWeight_append (left right : List DataType) :
    totalWeight (left ++ right) = totalWeight left + totalWeight right := by
  induction left with
  | nil => simp only [totalWeight, List.nil_append, Nat.zero_add]
  | cons type rest step =>
      simp only [totalWeight, List.cons_append, step, Nat.add_assoc]

theorem totalWeight_children_lt (type : DataType) :
    totalWeight type.children < type.weight := by
  cases type <;> simp only [children, totalWeight, weight] <;> omega

end DataType

/-- The room that a value takes in a field, and the number of bytes that its
offset is a multiple of. -/
structure Slot where
  size : Nat
  alignment : Nat
deriving DecidableEq, Inhabited

/-- Primitive values are held in place and aligned to their size, and all others
are referred to by four bytes. -/
def DataType.slot : DataType → Slot
  | .primitive kind => ⟨kind.size, max kind.size 1⟩
  | _ => ⟨4, 4⟩

end PluginSurface
