import PluginSurface.Wasm.Operand

/-!
Instructions that decide what comes next: blocks, branches, calls and exceptions.
-/

namespace PluginSurface.Wasm.CodeCheck

open ValueType

/-! ## Blocks -/

def otherwise : CodeCheck Unit := do
  let frame ← exit
  guard (frame.kind = .whenTrue)
  openBlock .whenFalse frame.type

/-- Ends a block. A condition without an alternative passes on what the block
began with. -/
def finish : CodeCheck Unit := do
  let frame ← exit
  let types := (← read).context.types
  guard (frame.kind ≠ .whenTrue ||
    types.areSubtypes frame.type.params frame.type.results)
  pushAll frame.type.results

/-! ## Branches -/

def branch : CodeCheck Unit := do
  popAll (← branchTypes (← word))
  leave

def branchIf : CodeCheck Unit := do
  let types ← branchTypes (← word)
  pop i32
  retype types

/-- Checks branches to one of several blocks, which all take the same number of
operands. -/
def branchTable : CodeCheck Unit := do
  pop i32
  let depths ← (Decoder.vector Decoder.word : Decoder (List Nat))
  let standard ← branchTypes (← word)
  for depth in depths do
    let types ← branchTypes depth
    guard (types.length = standard.length)
    let state ← get
    popAll types
    set state
  popAll standard
  leave

/-- Branches without the reference if it is null. -/
def branchOnNull : CodeCheck Unit := do
  let types ← branchTypes (← word)
  let operand ← popReference
  retype types
  match operand with
  | .known (.reference type) => pushReference type.nonNull
  | operand => pushOperand operand

/-- The types that a branch takes along before the last one, which has to be that
of a reference. -/
def splitReference (types : List ValueType) :
    CodeCheck (List ValueType × RefType) := do
  match types.reverse with
  | .reference last :: before => return (before.reverse, last)
  | _ => failure

/-- Branches with the reference if it is not null. -/
def branchOnNonNull : CodeCheck Unit := do
  let (types, wanted) ← splitReference (← branchTypes (← word))
  match ← popReference with
  | .known (.reference type) =>
      guard (← isSubtype (.reference type.nonNull) (.reference wanted))
  | _ => pure ()
  retype types

/-- Branches with a reference that has a type, or with one that does not have
it. -/
def branchOnCast (isFailure : Bool) : CodeCheck Unit := do
  let flags := (← (Decoder.byte : Decoder UInt8)).toNat
  guard (flags < 4)
  let (types, wanted) ← splitReference (← branchTypes (← word))
  let source : RefType := ⟨flags % 2 = 1, ← heapType⟩
  let target : RefType := ⟨flags / 2 = 1, ← heapType⟩
  guard (← isSubtype (.reference target) (.reference source))
  let others := source.without target
  let (taken, left) := if isFailure then (others, target) else (target, others)
  guard (← isSubtype (.reference taken) (.reference wanted))
  pop (.reference source)
  retype types
  pushReference left

/-! ## Calls -/

def call (type : FunctionType) : CodeCheck Unit := do
  popAll type.params
  pushAll type.results

def giveBack : CodeCheck Unit := do
  popAll (← read).results
  leave

/-- Calls a function and returns what it returns. -/
def returnCall (type : FunctionType) : CodeCheck Unit := do
  let scope ← read
  guard (scope.context.types.areSubtypes type.results scope.results)
  popAll type.params
  leave

/-- Takes the index of a function and tells its type. -/
def direct : CodeCheck FunctionType := do
  match (← read).context.functionType? (← word) with
  | some type => return type
  | none => failure

/-- Takes what leads to a function in a table and tells the function's type. -/
def indirect : CodeCheck FunctionType := do
  let type ← functionType
  let table ← indexed Context.tables
  guard (← isSubtype (.reference table.element) funcref)
  pop table.address.value
  return type

/-- Takes a reference to a function and tells the function's type. -/
def byReference : CodeCheck FunctionType := do
  let context := (← read).context
  match context.types.id? (← word) with
  | some id =>
      popNullable (.defined id)
      match context.types.function? id with
      | some type => return type
      | none => failure
  | none => failure

/-! ## Exceptions -/

def throwTag : CodeCheck Unit := do
  popAll (← indexed Context.tags).params
  leave

def throwReference : CodeCheck Unit := do
  popNullable (.common .exn)
  leave

/-- Checks where an exception goes: one with a tag or any, with a reference to it
or without. The block it goes to has to take along what it brings. -/
def catchClause : CodeCheck Unit := do
  let kind := (← (Decoder.byte : Decoder UInt8)).toNat
  guard (kind < 4)
  let params ←
    if kind < 2 then pure (← indexed Context.tags).params else pure []
  let brought :=
    if kind % 2 = 1 then params ++ [.reference RefType.exn] else params
  let wanted ← branchTypes (← word)
  guard ((← read).context.types.areSubtypes brought wanted)

def catchClauses : Nat → CodeCheck Unit
  | 0 => return
  | count + 1 => do
      catchClause
      catchClauses count

def clauseLimit : Nat := 10000

def enterTry : CodeCheck Unit := do
  let type ← blockType
  let count ← word
  guard (count ≤ clauseLimit)
  catchClauses count
  enter .block type

end PluginSurface.Wasm.CodeCheck
