import PluginSurface.Wasm.Code

/-!
Validity of modules: their sections come in order, all that they refer to is
there, and code is well typed. The core language is covered with its extensions
for vectors, threads, tail calls, exceptions, references, garbage collection,
several memories and wide addresses.
-/

namespace PluginSurface.Wasm

open Leb128 (Bytes)

/-- The place of a section among the sections of a module. -/
def Section.rank? (sec : Section) : Option Nat :=
  if sec.id = 13 then some 6
  else if sec.id = 12 then some 11
  else if sec.id = 10 then some 12
  else if sec.id = 11 then some 13
  else if sec.id = 0 ∨ 13 < sec.id then none
  else if sec.id ≤ 5 then some sec.id.toNat
  else some (sec.id.toNat + 1)

/-- What the sections that have been checked declare. -/
structure ModuleState where
  context : Context
  /-- The rank of the last section that was no custom section. -/
  rank : Nat
  /-- The functions that code has to be given for. -/
  pending : List FunctionType
  /-- The number of data segments. -/
  dataCount : Nat
deriving Inhabited

namespace ModuleState

def start : ModuleState :=
  ⟨.empty, 0, [], 0⟩

abbrev Check := StateT ModuleState Decoder

def withContext (change : Context → Context) : Check Unit :=
  modify fun state => { state with context := change state.context }

/-- Checks items behind their number, up to the end of a section. -/
def items (item : Check Unit) : Check Unit := do
  let rec repeated : Nat → Check Unit
    | 0 => return
    | count + 1 => do
        item
        repeated count
  repeated (← (Decoder.word : Decoder Nat))

/-- Takes an index of one of several things and finds the thing. -/
def indexed {Item : Type} (list : List Item) : Check Item := do
  match list[← (Decoder.word : Decoder Nat)]? with
  | some item => return item
  | none => failure

def constant (type : ValueType) : Check Unit := do
  let references ← ((← get).context.constant type : Decoder (List Nat))
  withContext fun context =>
    { context with references := references ++ context.references }

/-! ## Sections -/

def typeItem : Check Unit := do
  let types ← ((← get).context.types.decodeGroup : Decoder TypeTable)
  withContext fun context => { context with types }

/-- Takes the type of a function that is declared. -/
def addFunction : Check FunctionType := do
  let context := (← get).context
  let position ← (Decoder.word : Decoder Nat)
  match context.types.id? position, context.functionTypeAt? position with
  | some id, some type =>
      withContext fun context =>
        { context with functions := context.functions ++ [id] }
      return type
  | _, _ => failure

def functionItem : Check Unit := do
  let type ← addFunction
  modify fun state => { state with pending := state.pending ++ [type] }

def tagItem : Check Unit := do
  Decoder.expect 0
  let context := (← get).context
  match context.functionTypeAt? (← (Decoder.word : Decoder Nat)) with
  | some type =>
      guard type.results.isEmpty
      withContext fun context => { context with tags := context.tags ++ [type] }
  | none => failure

def memoryItem : Check Unit := do
  let address ← (decodeMemory : Decoder AddressType)
  withContext fun context =>
    { context with memories := context.memories ++ [address] }

def tableType : Check TableType := do
  (TableType.decode (← get).context.names : Decoder TableType)

def addTable (type : TableType) : Check Unit :=
  withContext fun context => { context with tables := context.tables ++ [type] }

def globalType : Check GlobalType := do
  (GlobalType.decode (← get).context.names : Decoder GlobalType)

def addGlobal (type : GlobalType) : Check Unit :=
  withContext fun context =>
    { context with globals := context.globals ++ [type] }

def importItem : Check Unit := do
  let _ ← (Decoder.name : Decoder String)
  let _ ← (Decoder.name : Decoder String)
  match (← (Decoder.byte : Decoder UInt8)).toNat with
  | 0 => do
      let _ ← addFunction
  | 1 => do addTable (← tableType)
  | 2 => memoryItem
  | 3 => do addGlobal (← globalType)
  | 4 => tagItem
  | _ => failure

/-- A table, which has an expression for its first elements unless they are
null. -/
def tableItem : Check Unit := do
  if (← (Decoder.peek : Decoder UInt8)) = 0x40 then
    Decoder.expect 0x40
    Decoder.expect 0
    let type ← tableType
    constant (.reference type.element)
    addTable type
  else
    let type ← tableType
    guard type.element.isNullable
    addTable type

def globalItem : Check Unit := do
  let type ← globalType
  constant type.type
  addGlobal type

def exportItem : Check String := do
  let name ← (Decoder.name : Decoder String)
  let kind ← (Decoder.byte : Decoder UInt8)
  let index ← (Decoder.word : Decoder Nat)
  let context := (← get).context
  match kind.toNat with
  | 0 => do
      guard (index < context.functions.length)
      withContext fun context =>
        { context with references := index :: context.references }
  | 1 => guard (index < context.tables.length)
  | 2 => guard (index < context.memories.length)
  | 3 => guard (index < context.globals.length)
  | 4 => guard (index < context.tags.length)
  | _ => failure
  return name

/-- Checks exports, whose names have to be distinct. -/
def exports : Nat → List String → Check Unit
  | 0, _ => return
  | count + 1, known => do
      let name ← exportItem
      guard (!known.contains name)
      exports count (name :: known)

def startFunction : Check Unit := do
  let context := (← get).context
  match context.functionType? (← (Decoder.word : Decoder Nat)) with
  | some type => guard (type.params.isEmpty ∧ type.results.isEmpty)
  | none => failure

/-- Takes the functions of an element segment by their indices. -/
def elementFunctions : Check Unit := do
  let indices ←
    (Decoder.vectorUpTo elementLimit Decoder.word : Decoder (List Nat))
  let context := (← get).context
  guard (indices.all (· < context.functions.length))
  withContext fun context =>
    { context with references := indices ++ context.references }

/-- Checks an element segment. The bits of its flags tell whether it is no part
of a table from the start, whether it names its table or type, and whether its
elements are expressions. -/
def elementItem : Check Unit := do
  let flags ← (Decoder.word : Decoder Nat)
  guard (flags < 8)
  let isPassive := flags % 2 = 1
  let isExplicit := flags / 2 % 2 = 1
  let areExpressions := flags / 4 = 1
  let tables := (← get).context.tables
  let table ←
    if isPassive then pure none
    else
      let table ←
        if isExplicit then indexed tables
        else
          match tables with
          | table :: _ => pure table
          | [] => failure
      constant table.address.value
      pure (some table)
  let types := (← get).context.types
  let type ←
    if !isPassive && !isExplicit then
      pure (if areExpressions then RefType.func.nullable else RefType.func)
    else if areExpressions then
      (RefType.decode types.id? : Decoder RefType)
    else
      Decoder.expect 0
      pure RefType.func
  guard (table.all fun table => types.isSubRef type table.element)
  if areExpressions then items (constant (.reference type))
  else elementFunctions
  withContext fun context =>
    { context with elements := context.elements ++ [type] }

def dataItem : Check Unit := do
  let memories := (← get).context.memories
  let offset (memory : Option AddressType) : Check Unit := do
    match memory with
    | some address => constant address.value
    | none => failure
  match ← (Decoder.word : Decoder Nat) with
  | 0 => offset memories[0]?
  | 1 => pure ()
  | 2 => do offset memories[← (Decoder.word : Decoder Nat)]?
  | _ => failure
  let length ← (Decoder.word : Decoder Nat)
  let _ ← (Decoder.bytes length : Decoder Bytes)
  modify fun state => { state with dataCount := state.dataCount + 1 }

/-- Checks the code of the functions that await it. -/
def codeItem : Check Unit := do
  let length ← (Decoder.word : Decoder Nat)
  let code ← (Decoder.bytes length : Decoder Bytes)
  let state ← get
  match state.pending with
  | [] => failure
  | type :: pending =>
      guard (isCode state.context type code)
      set { state with pending }

/-- Checks the content of a section that is no custom section. -/
def content (sec : Section) : Check Unit := do
  match sec.id.toNat with
  | 1 => items typeItem
  | 2 => items importItem
  | 3 => items functionItem
  | 4 => items tableItem
  | 5 => items memoryItem
  | 6 => items globalItem
  | 7 => do exports (← (Decoder.word : Decoder Nat)) []
  | 8 => startFunction
  | 9 => items elementItem
  | 10 => items codeItem
  | 11 => items dataItem
  | 12 => do
      let count ← (Decoder.word : Decoder Nat)
      withContext fun context => { context with dataCount := some count }
  | 13 => items tagItem
  | _ => failure

/-- Whether a module has no more of anything than it may have. -/
def isWithinLimits (state : ModuleState) : Bool :=
  let context := state.context
  let most := 1000000
  context.types.size ≤ most && context.functions.length ≤ most &&
    context.globals.length ≤ most && context.tags.length ≤ most &&
    context.tables.length ≤ 100 && context.memories.length ≤ 100 &&
    context.elements.length ≤ 100000 && state.dataCount ≤ 100000

def addSection (state : ModuleState) (sec : Section) : Option ModuleState :=
  if sec.id = Section.customId then
    if sec.isFramed then some state else none
  else do
    let rank ← sec.rank?
    guard (state.rank < rank)
    let check : Decoder ModuleState := do
      let (_, state) ← (content sec).run { state with rank }
      guard state.isWithinLimits
      return state
    check.runAll sec.body

/-- Whether a module may end: every function has its code, and there are as many
data segments as announced. -/
def isFinished (state : ModuleState) : Bool :=
  state.pending.isEmpty &&
    (state.context.dataCount.getD state.dataCount == state.dataCount)

end ModuleState

def isValid (sections : List Section) : Bool :=
  match sections.foldlM ModuleState.addSection .start with
  | some state => state.isFinished
  | none => false

end PluginSurface.Wasm
