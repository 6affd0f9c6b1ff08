import PluginSurface.Resolve.DataType

/-!
The classes and scopes of several programs, and the types that annotations mean
in them.
-/

namespace PluginSurface

/-- A class and the path of the module that declares it. -/
structure ClassEntry where
  modulePath : String
  decl : ClassDecl
deriving Inhabited

/-- The scopes of programs by their paths, and their classes by the paths of the
classes. -/
structure Declarations where
  scopes : Dict ModuleScope
  classes : Dict ClassEntry
deriving Inhabited

namespace Declarations

/-- The classes of a program under their paths. -/
def classEntries (program : Program) : List (String × ClassEntry) :=
  program.classes.map fun decl =>
    (program.path ++ "/" ++ decl.name.text, ⟨program.path, decl⟩)

/-- What programs declare. Of several with one path the last counts. -/
def ofPrograms (programs : List Program) : Declarations where
  scopes := Dict.ofEntries <| programs.map fun program =>
    (program.path, ModuleScope.ofProgram program)
  classes := Dict.ofEntries (programs.flatMap classEntries)

/-- The path of the class that a dotted name means in a module. A name that the
module does not bind is taken for a class of its own. -/
def classPath (declarations : Declarations) (modulePath : String)
    (names : List String) : String :=
  let bound := do
    let scope ← declarations.scopes.find? modulePath
    scope.qualify names
  bound.getD (modulePath ++ "/" ++ String.intercalate "/" names)

/-- The type that a name and type arguments mean in a module. -/
def named (declarations : Declarations) (modulePath : String)
    (names : List String) (arguments : List DataType) : DataType :=
  let class_ := DataType.class (declarations.classPath modulePath names)
  match names with
  | [name] =>
      match Primitive.ofText? name with
      | some kind => .primitive kind
      | none =>
          match name, arguments with
          | "string", [] | "String", [] => .string
          | "Date", [] => .date
          | "Array", [element] => .array element
          | "Map", [key, value] => .map key value
          | _, _ => class_
  | _ => class_

mutual

/-- The type that a written type means in a module. -/
def resolveShape (declarations : Declarations) (modulePath : String) :
    TypeShape → DataType
  | .named names arguments =>
      declarations.named modulePath names
        (resolveShapes declarations modulePath arguments)
  | .array element => .array (resolveShape declarations modulePath element)
  | .nullable inner => .nullable (resolveShape declarations modulePath inner)

def resolveShapes (declarations : Declarations) (modulePath : String) :
    List TypeShape → List DataType
  | [] => []
  | type :: rest =>
      resolveShape declarations modulePath type ::
        resolveShapes declarations modulePath rest

end

/-- The type that an annotation means in a module. -/
def resolve (declarations : Declarations) (modulePath : String)
    (type : TypeExpr) : DataType :=
  declarations.resolveShape modulePath type.shape

/-- The type of what a function returns, which is nothing if none is written. -/
def resolveReturn (declarations : Declarations) (modulePath : String)
    (type : Option TypeExpr) : DataType :=
  match type with
  | some type => declarations.resolve modulePath type
  | none => .primitive .void

end Declarations

end PluginSurface
