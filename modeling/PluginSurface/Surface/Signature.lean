import PluginSurface.Json.Value

/-!
What a plugin offers to its host: functions with typed parameters, and the
types that cross the boundary with their layouts.
-/

namespace PluginSurface

/-- A type by the name it is shown under and the path it comes from. -/
structure TypeRef where
  name : String
  path : String
deriving DecidableEq, Inhabited

/-- A parameter of a function. -/
structure Parameter where
  name : String
  type : TypeRef
  /-- Whether the declaration gives the parameter a default. -/
  isOptional : Bool
  /-- The default as a document value, where it has one. -/
  default? : Option Json
deriving Inhabited, BEq

/-- A function as the host sees it. -/
structure FunctionSignature where
  name : String
  parameters : List Parameter
  returnType : TypeRef
deriving Inhabited, BEq

/-- A field of a class and its offset in bytes. -/
structure Field where
  /-- A build keeps it in 32 bits. It has no bound here, and what is proved of it
  holds of offsets below `2 ^ 32`. -/
  offset : Nat
  name : String
  type : TypeRef
deriving DecidableEq, Inhabited

/-- A type that crosses the boundary. Only classes have fields. -/
structure TypeDefinition where
  /-- A build keeps it in 32 bits, and the size with it. They have no bound here,
  and what is proved of them holds of numbers and sizes below `2 ^ 32`. -/
  id : Nat
  size : Nat
  path : String
  name : String
  fields : Option (List Field)
deriving DecidableEq, Inhabited

namespace TypeDefinition

/-- Paths of built-in types that listings leave out. -/
def hiddenPaths : List String :=
  ["~lib/string/String", "~lib/array/Array", "~lib/map/Map", "~lib/date/Date",
    "~lib/wasi_date/wasi_Date"]

/-- Starts of the paths of generic built-in types and of library types, which
listings leave out as well. -/
def hiddenPathStarts : List String :=
  ["~lib/array/Array<", "~lib/map/Map<", "~lib/@hypermode/"]

def isHidden (definition : TypeDefinition) : Bool :=
  hiddenPaths.contains definition.path ||
    hiddenPathStarts.any fun start =>
      start.toList.isPrefixOf definition.path.toList

end TypeDefinition

/-- A parameter with a default, and the text of the default for people. -/
structure OptionalRecord where
  parameter : Parameter
  text : Option String
deriving Inhabited

/-- The optional parameters of functions by name, as far as they are known. -/
abbrev RecordLookup :=
  String → Option (List OptionalRecord)

end PluginSurface
