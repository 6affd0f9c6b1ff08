import PluginSurface.Syntax.Arena

/-!
Programs: the declarations of one source text, over one arena.
-/

namespace PluginSurface

/-- What a source is to a build: a file whose exports make up the plugin, a
further file of its author, or part of a library. -/
inductive SourceKind where
  | entry | user | library
deriving DecidableEq, Inhabited

structure Decorator where
  name : Name
  arguments : List ExprId
  span : Span
deriving Inhabited

/-- The name a declaration has on the host's side. -/
structure ExternalName where
  moduleName : Option String
  name : String
deriving DecidableEq, Inhabited

structure Param where
  name : Name
  type : TypeExpr
  initializer : Option ExprId
  span : Span
deriving Inhabited

structure FunctionDecl where
  name : Name
  decorators : List Decorator
  external : Option ExternalName
  isExported : Bool
  isDeclared : Bool
  params : List Param
  returnType : Option TypeExpr
  body : Option Block
  span : Span
deriving Inhabited

namespace FunctionDecl

/-- The name a function goes by: a function without a body that is imported
from a host module has its name there, and any other its own. -/
def resolvedName (function : FunctionDecl) : String :=
  match function.body, function.external with
  | none, some ⟨some _, name⟩ => name
  | _, _ => function.name.text

def hasDefaults (function : FunctionDecl) : Bool :=
  function.params.any fun param => param.initializer.isSome

end FunctionDecl

structure FieldDecl where
  name : Name
  type : TypeExpr
  initializer : Option ExprId
  span : Span
deriving Inhabited

structure ClassDecl where
  name : Name
  decorators : List Decorator
  isExported : Bool
  base : Option TypeExpr
  fields : List FieldDecl
  methods : List FunctionDecl
  span : Span
deriving Inhabited

structure ExportMember where
  localName : Name
  exportedName : Option Name
deriving Inhabited

structure ExportDecl where
  members : List ExportMember
  source : Option String
  span : Span
deriving Inhabited

structure ImportMember where
  importedName : Name
  localName : Name
deriving Inhabited

structure ImportDecl where
  members : List ImportMember
  namespaceName : Option Name
  source : String
  span : Span
deriving Inhabited

structure VariableDecl where
  kind : BindingKind
  name : Name
  type : Option TypeExpr
  value : Option ExprId
  isExported : Bool
  decorators : List Decorator
  span : Span
deriving Inhabited

inductive Item where
  | function (function : FunctionDecl)
  | class (class_ : ClassDecl)
  | exportList (exportList : ExportDecl)
  | importList (importList : ImportDecl)
  | variable (variable_ : VariableDecl)
deriving Inhabited

structure Program where
  /-- The path other modules know it by. -/
  path : String
  kind : SourceKind
  items : List Item
  arena : Arena
  span : Span
deriving Inhabited

namespace Program

def functions (program : Program) : List FunctionDecl :=
  program.items.filterMap fun item =>
    match item with
    | .function function => some function
    | _ => none

def classes (program : Program) : List ClassDecl :=
  program.items.filterMap fun item =>
    match item with
    | .class class_ => some class_
    | _ => none

def imports (program : Program) : List ImportDecl :=
  program.items.filterMap fun item =>
    match item with
    | .importList importList => some importList
    | _ => none

def exports (program : Program) : List ExportDecl :=
  program.items.filterMap fun item =>
    match item with
    | .exportList exportList => some exportList
    | _ => none

/-- The first function that goes by a name. -/
def function? (program : Program) (name : String) : Option FunctionDecl :=
  program.functions.find? fun function => function.resolvedName == name

def class? (program : Program) (name : String) : Option ClassDecl :=
  program.classes.find? fun class_ => class_.name.text == name

end Program

/-- Drops a leading `./` as long as there is one. -/
def dropCurrentDirectory : List Char → List Char
  | '.' :: '/' :: rest => dropCurrentDirectory rest
  | chars => chars

/-- The path other modules know a file by: with forward slashes, without
leading `./` and without its `.ts`. -/
def modulePath (fileName : String) : String :=
  let slashed := fileName.toList.map fun char =>
    if char = '\\' then '/' else char
  let trimmed := dropCurrentDirectory slashed
  String.ofList <|
    if ".ts".toList.isSuffixOf trimmed then trimmed.take (trimmed.length - 3)
    else trimmed

end PluginSurface
