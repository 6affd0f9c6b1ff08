import PluginSurface.Dict
import PluginSurface.Source.Parts
import PluginSurface.Syntax.Program

/-!
The names of types that a module sees, and the modules they come from.
-/

namespace PluginSurface

/-! ## Paths of modules -/

namespace ModulePath

/-- What stands at the head of the path of every library module. -/
def libraryRoot : String :=
  "~lib/"

def segments (path : String) : List (List Char) :=
  splitAtMark '/' path.toList

def ofSegments (parts : List (List Char)) : String :=
  String.ofList (joinWithMark '/' parts)

def lastSegment (path : String) : String :=
  String.ofList ((segments path).getLastD [])

/-- Goes one step from a directory: a dot or nothing stays, two dots leave the
directory if there is one to leave, and a name enters it. -/
def step (directory : List (List Char)) (segment : List Char) :
    List (List Char) :=
  if segment = [] ∨ segment = ['.'] then directory
  else if segment = ['.', '.'] then directory.dropLast
  else directory ++ [segment]

/-- A specifier without its `.ts`. -/
def withoutExtension (specifier : List Char) : List Char :=
  if ".ts".toList.isSuffixOf specifier then
    specifier.take (specifier.length - 3)
  else specifier

def isRelative (specifier : List Char) : Bool :=
  "./".toList.isPrefixOf specifier || "../".toList.isPrefixOf specifier

/-- The module that a specifier means in a module. A relative specifier starts
from the directory of the module that writes it, and any other names a library
module. -/
def resolve (origin specifier : String) : String :=
  let path := withoutExtension specifier.toList
  if isRelative path then
    ofSegments ((splitAtMark '/' path).foldl step (segments origin).dropLast)
  else
    let root := libraryRoot.toList
    let package :=
      if root.isPrefixOf path then path.drop root.length else path
    String.ofList (root ++ package)

end ModulePath

/-! ## Scopes -/

/-- What a name at the top of a module stands for. -/
inductive Binding where
  /-- A class of the module itself. -/
  | declared
  /-- A name of another module. -/
  | imported (modulePath name : String)
  /-- Another module as a whole. -/
  | wholeModule (modulePath : String)
deriving DecidableEq, Inhabited

/-- The path of a module and what its names stand for. -/
structure ModuleScope where
  path : String
  bindings : Dict Binding
deriving Inhabited

namespace ModuleScope

def importBindings (origin : String) (decl : ImportDecl) :
    List (String × Binding) :=
  let source := ModulePath.resolve origin decl.source
  let whole := decl.namespaceName.toList.map fun name =>
    (name.text, .wholeModule source)
  let members := decl.members.map fun member =>
    (member.localName.text, .imported source member.importedName.text)
  whole ++ members

/-- The scope of a program. A later import of a name hides an earlier one, and a
class hides an import. -/
def ofProgram (program : Program) : ModuleScope where
  path := program.path
  bindings := Dict.ofEntries <|
    program.imports.flatMap (importBindings program.path) ++
      program.classes.map fun decl => (decl.name.text, .declared)

def find? (scope : ModuleScope) (name : String) : Option Binding :=
  scope.bindings.find? name

/-- The path of the type that a dotted name means, if the module binds its first
segment. A module as a whole is no type. -/
def qualify (scope : ModuleScope) : List String → Option String
  | [] => none
  | first :: rest => do
      let start ←
        match ← scope.find? first with
        | .declared => some (scope.path ++ "/" ++ first)
        | .imported source name => some (source ++ "/" ++ name)
        | .wholeModule source => if rest = [] then none else some source
      some (rest.foldl (fun path segment => path ++ "/" ++ segment) start)

end ModuleScope

end PluginSurface
