import PluginSurface.Optional.Default
import PluginSurface.Optional.Mask
import PluginSurface.Source.Diagnostic
import PluginSurface.Surface.Signature

/-!
Replacing defaults by a mask. Every function of a plugin that the host can call
loses its defaults. If it has a body it gains a trailing parameter instead, the
mask of supplied arguments, and its body first assigns its default to each
parameter that the mask does not mark. What the defaults were is recorded.
-/

namespace PluginSurface

/-- Why a function cannot take a mask. -/
inductive MaskingError where
  /-- Its parameters and the mask do not fit into 64 bits. -/
  | tooManyParameters (function : String) (count : Nat) (file : String)
      (span : Span)
  /-- One of its parameters has the name of the mask. -/
  | reservedParameterName (function : String) (file : String) (span : Span)
deriving DecidableEq, Inhabited

namespace MaskingError

def code : MaskingError → ErrorCode
  | tooManyParameters .. => .tooManyParameters
  | reservedParameterName .. => .reservedParameterName

def function : MaskingError → String
  | tooManyParameters name _ _ _ => name
  | reservedParameterName name _ _ => name

def message : MaskingError → String
  | tooManyParameters name count file span =>
      file ++ ":" ++ span.text ++ ": function '" ++ name ++ "' has " ++
        toString count ++ " parameters, at most " ++ toString parameterLimit ++
        " are allowed"
  | reservedParameterName name file span =>
      file ++ ":" ++ span.text ++ ": function '" ++ name ++
        "' declares a parameter named '" ++ maskParameter ++
        "', which is reserved"

end MaskingError

/-- What masking leaves for the later stages of a build. -/
structure MaskingContext where
  /-- Names of functions that have to be callable from the host. -/
  required : Dict Unit
  /-- The optional parameters of each processed function. -/
  records : Dict (List OptionalRecord)
  /-- The names of the processed functions in source order. -/
  processed : List String
deriving Inhabited

namespace MaskingContext

def empty : MaskingContext :=
  ⟨[], [], []⟩

def isEmpty (context : MaskingContext) : Bool :=
  context.required.isEmpty && context.records.isEmpty &&
    context.processed.isEmpty

def require (context : MaskingContext) (name : String) : MaskingContext :=
  { context with required := context.required.insert name () }

def isRequired (context : MaskingContext) (name : String) : Bool :=
  context.required.contains name

/-- Stores what is known of a processed function. A later function of the same
name takes the place of an earlier one. -/
def record (context : MaskingContext) (name : String)
    (records : List OptionalRecord) : MaskingContext :=
  { context with
    records := context.records.insert name records
    processed :=
      if context.records.contains name then context.processed
      else context.processed ++ [name] }

/-- The optional parameters of a processed function, in order. -/
def records? (context : MaskingContext) : RecordLookup :=
  fun name => context.records.find? name

/-- Forgets what an earlier pass has left. -/
def reset (context : MaskingContext) : MaskingContext :=
  { context with required := [], records := [], processed := [] }

end MaskingContext

namespace Masking

/-! ## Selection -/

/-- The names that a program requires to be callable from the host: what its
export lists name and the functions it exports, if it is an entry, and host
functions it imports. -/
def requiredNames (program : Program) : List String :=
  let isEntry := program.kind == .entry
  let listed :=
    program.exports.flatMap fun exportList =>
      exportList.members.map fun member => member.localName.text
  let declared :=
    program.functions.filter fun function =>
      (isEntry && function.isExported) || function.body.isNone
  if program.kind == .library then []
  else
    (if isEntry then listed else []) ++
      declared.map FunctionDecl.resolvedName

/-- The context that all required names are known in. -/
def requiring (programs : List Program) : MaskingContext :=
  (programs.flatMap requiredNames).foldl MaskingContext.require .empty

/-- Whether a function of a program that is no library is processed. -/
def isSelected (kind : SourceKind) (context : MaskingContext)
    (function : FunctionDecl) : Bool :=
  context.isRequired function.resolvedName ||
    (kind == .entry && function.isExported)

/-! ## Records -/

/-- What is recorded of a parameter that has a default. -/
def recordOf? (arena : Arena) (param : Param) : Option OptionalRecord :=
  param.initializer.map fun initializer =>
    let tree := arena.exprTree initializer
    let type := param.type.text
    ⟨⟨param.name.text, ⟨type, type⟩, true, tree.json?⟩,
      some (DefaultLiteral.ofTree tree).text⟩

def recordsOf (arena : Arena) (function : FunctionDecl) :
    List OptionalRecord :=
  function.params.filterMap (recordOf? arena)

/-! ## Guards -/

abbrev Building (Result : Type) :=
  StateM Arena Result

section

variable (span : Span)

def addExpr (node : Expr) : Building ExprId :=
  fun arena => arena.addExpr node span

def addStmt (node : Stmt) : Building StmtId :=
  fun arena => arena.addStmt node span

def addInteger (value : Nat) : Building ExprId :=
  addExpr span (.literal (.integer (UInt64.ofNat value) (toString value)))

/-- The bits of the mask from a position on: the mask, or the mask shifted to
the right in parentheses. -/
def maskFrom (index : Nat) : Building ExprId := do
  let mask ← addExpr span (.identifier maskParameter)
  if index = 0 then return mask
  else
    let distance ← addInteger span index
    let shifted ← addExpr span (.binary .shiftRight mask distance)
    addExpr span (.paren shifted)

/-- The test that the mask does not mark an argument:
`((mask >> index) & 1) == 0`. -/
def unsuppliedTest (index : Nat) : Building ExprId := do
  let bits ← maskFrom span index
  let one ← addInteger span 1
  let bit ← addExpr span (.binary .bitAnd bits one)
  let bit ← addExpr span (.paren bit)
  let zero ← addInteger span 0
  addExpr span (.binary .equal bit zero)

/-- The statement that assigns a default to a parameter that was not
supplied. -/
def guardStatement (index : Nat) (name : String) (initializer : ExprId) :
    Building StmtId := do
  let condition ← unsuppliedTest span index
  let target ← addExpr span (.identifier name)
  let assignment ← addExpr span (.assign none target initializer)
  let whenTrue ← addStmt span (.expression assignment)
  addStmt span (.branch condition whenTrue none)

/-- The guards of the parameters from a position on, in order. -/
def guardStatements (index : Nat) : List Param → Building (List StmtId)
  | [] => return []
  | param :: rest => do
      match param.initializer with
      | none => guardStatements (index + 1) rest
      | some initializer =>
          let first ← guardStatement span index param.name.text initializer
          let more ← guardStatements (index + 1) rest
          return first :: more

end

/-! ## Functions and programs -/

def withoutInitializer (param : Param) : Param :=
  { param with initializer := none }

def withoutInitializers (function : FunctionDecl) : FunctionDecl :=
  { function with params := function.params.map withoutInitializer }

def maskParam (span : Span) : Param :=
  ⟨⟨maskParameter, span⟩, .simple maskType span, none, span⟩

/-- A function with a mask in place of its defaults. -/
def withMask (function : FunctionDecl) : Building FunctionDecl := do
  let guards ← guardStatements function.span 0 function.params
  return { function with
    params :=
      function.params.map withoutInitializer ++ [maskParam function.span]
    body := function.body.map fun body =>
      { body with statements := guards ++ body.statements } }

/-- A computation that updates the context and may be cut short. -/
abbrev Pass (Result : Type) :=
  ExceptT MaskingError (StateM MaskingContext) Result

def maskFunction (file : String) (arena : Arena) (function : FunctionDecl) :
    Pass (FunctionDecl × Arena) := do
  let name := function.resolvedName
  if parameterLimit < function.params.length then
    throw (.tooManyParameters name function.params.length file function.span)
  modify fun context => context.record name (recordsOf arena function)
  if !function.hasDefaults then return (function, arena)
  else if function.body.isNone then return (withoutInitializers function, arena)
  else
    match function.params.find? fun param =>
        param.name.text == maskParameter with
    | some param => throw (.reservedParameterName name file param.span)
    | none => return (withMask function).run arena

def maskItems (file : String) (kind : SourceKind) :
    Arena → List Item → Pass (List Item × Arena)
  | arena, [] => return ([], arena)
  | arena, .function function :: rest => do
      if isSelected kind (← get) function then
        let (function, arena) ← maskFunction file arena function
        let (rest, arena) ← maskItems file kind arena rest
        return (.function function :: rest, arena)
      else
        let (rest, arena) ← maskItems file kind arena rest
        return (.function function :: rest, arena)
  | arena, item :: rest => do
      let (rest, arena) ← maskItems file kind arena rest
      return (item :: rest, arena)

/-- Processes a program. Libraries stay as they are. -/
def maskProgram (program : Program) : Pass Program := do
  if program.kind == .library then return program
  else
    let (items, arena) ←
      maskItems program.path program.kind program.arena program.items
    return { program with items := items, arena := arena }

def maskPrograms : List Program → Pass (List Program)
  | [] => return []
  | program :: rest => do
      let program ← maskProgram program
      let rest ← maskPrograms rest
      return program :: rest

end Masking

/-- Puts masks in place of defaults in the programs of a build. The context tells
what was processed, also when a function cannot take a mask. -/
def maskSources (programs : List Program) :
    Except MaskingError (List Program) × MaskingContext :=
  (Masking.maskPrograms programs).run (Masking.requiring programs)

/-- Masks the programs of a build in a context that an earlier pass may have
used. -/
def MaskingContext.maskAnew (before : MaskingContext)
    (programs : List Program) :
    Except MaskingError (List Program) × MaskingContext :=
  (Masking.maskPrograms programs).run <|
    (programs.flatMap Masking.requiredNames).foldl MaskingContext.require
      before.reset

end PluginSurface
