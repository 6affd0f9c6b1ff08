import PluginSurface.Surface.Signature

/-!
One-line texts of signatures and types for people.
-/

namespace PluginSurface

/-- How names of parameters start that are not shown. -/
def internalStart : String :=
  "__"

/-- What is shown for a default that has no text. -/
def unknownDefault : String :=
  "..."

def Parameter.isInternal (parameter : Parameter) : Bool :=
  internalStart.toList.isPrefixOf parameter.name.toList

/-- The text of the default of a parameter in the first record about it. -/
def defaultText (records : List OptionalRecord) (name : String) : String :=
  ((records.find? fun record => record.parameter.name == name).bind
    OptionalRecord.text).getD unknownDefault

/-- A parameter with its type and, if it is optional, its default. -/
def Parameter.text (records : List OptionalRecord) (parameter : Parameter) :
    String :=
  parameter.name ++ ": " ++ parameter.type.name ++
    if parameter.isOptional then
      " = " ++ defaultText records parameter.name
    else ""

/-- A signature in one line, without internal parameters. -/
def FunctionSignature.text (signature : FunctionSignature)
    (records : Option (List OptionalRecord)) : String :=
  let shown :=
    signature.parameters.filter fun parameter => !parameter.isInternal
  signature.name ++ "(" ++
    String.intercalate ", " (shown.map (Parameter.text (records.getD []))) ++
    "): " ++ signature.returnType.name

/-- A type in one line, with its fields if it has any. -/
def TypeDefinition.text (definition : TypeDefinition) : String :=
  match definition.fields with
  | none | some [] => definition.name
  | some fields =>
      definition.name ++ " \x7b " ++
        String.intercalate ", "
          (fields.map fun field => field.name ++ ": " ++ field.type.name) ++
        " \x7d"

end PluginSurface
