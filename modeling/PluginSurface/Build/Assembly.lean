import PluginSurface.Optional.Masking
import PluginSurface.Resolve.Table
import PluginSurface.Surface.Manifest

/-!
The surface of a plugin: the signatures of its processed functions with their
types resolved, and the types that they depend on.
-/

namespace PluginSurface

/-- The program and the function that a processed name stands for. Of several
programs with such a function the last one counts, and libraries do not. -/
def processedFunction? (programs : List Program) (name : String) :
    Option (Program × FunctionDecl) :=
  programs.reverse.findSome? fun program =>
    if program.kind = .library then none
    else (program.function? name).map fun function => (program, function)

/-- A function with its types resolved. -/
structure ResolvedFunction where
  name : String
  /-- The names and types of the parameters. -/
  params : List (String × DataType)
  returnType : DataType
deriving Inhabited

namespace ResolvedFunction

/-- A function with the types that it has in its module. -/
def ofDecl (declarations : Declarations) (name modulePath : String)
    (function : FunctionDecl) : ResolvedFunction where
  name := name
  params := function.params.map fun param =>
    (param.name.text, declarations.resolve modulePath param.type)
  returnType := declarations.resolveReturn modulePath function.returnType

/-- The types that a function mentions: those of its parameters and then the type
it returns. -/
def types (function : ResolvedFunction) : List DataType :=
  function.params.map Prod.snd ++ [function.returnType]

/-- A parameter, which is optional with its default if there is a record of
it. -/
def parameter (records : List OptionalRecord) (name : String)
    (type : DataType) : Parameter :=
  match records.find? fun record => record.parameter.name == name with
  | some record => ⟨name, type.ref, true, record.parameter.default?⟩
  | none => ⟨name, type.ref, false, none⟩

/-- The signature of a function whose optional parameters are recorded. -/
def signature (records : List OptionalRecord) (function : ResolvedFunction) :
    FunctionSignature :=
  ⟨function.name,
    function.params.map fun (name, type) => parameter records name type,
    function.returnType.ref⟩

end ResolvedFunction

/-- The processed functions of masked programs in their order, with the types
that they have in these programs. -/
def resolvedFunctions (context : MaskingContext) (programs : List Program) :
    List ResolvedFunction :=
  let declarations := Declarations.ofPrograms programs
  context.processed.filterMap fun name =>
    (processedFunction? programs name).map fun (program, function) =>
      .ofDecl declarations name program.path function

/-- The signatures of the processed functions of masked programs. -/
def assembleSignatures (context : MaskingContext) (programs : List Program) :
    List FunctionSignature :=
  (resolvedFunctions context programs).map fun function =>
    function.signature ((context.records? function.name).getD [])

/-- The definitions of the types that the processed functions of masked
programs depend on. -/
def assembleTypes (context : MaskingContext) (programs : List Program) :
    List TypeDefinition :=
  (Declarations.ofPrograms programs).typeTable
    ((resolvedFunctions context programs).flatMap ResolvedFunction.types)

end PluginSurface
