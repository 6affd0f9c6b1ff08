import PluginSurface.Wasm.ValueType

/-!
The types that a module defines. They come in groups, whose types may mention each
other; groups that are built alike define the same types. The identity of a type
is the position where it was defined first.
-/

namespace PluginSurface.Wasm

/-- A type at its position in a module. -/
structure TypeEntry where
  id : Nat
  type : DefinedType
  /-- The types it is defined below, the nearest first. -/
  ancestors : List Nat
deriving DecidableEq, Inhabited

/-- Types that were defined together: the first position and their number. -/
structure TypeGroup where
  first : Nat
  size : Nat
deriving DecidableEq, Inhabited

structure TypeTable where
  entries : List TypeEntry
  groups : List TypeGroup
deriving Inhabited

namespace TypeTable

def empty : TypeTable :=
  ⟨[], []⟩

def size (table : TypeTable) : Nat :=
  table.entries.length

/-- The identity of the type at a position. -/
def id? (table : TypeTable) (position : Nat) : Option Nat :=
  table.entries[position]?.map TypeEntry.id

/-- How the type with an identity is built. -/
def shape? (table : TypeTable) (id : Nat) : Option Shape :=
  table.entries[id]?.map fun entry => entry.type.shape

def function? (table : TypeTable) (id : Nat) : Option FunctionType :=
  match table.shape? id with
  | some (.function type) => some type
  | _ => none

def record? (table : TypeTable) (id : Nat) : Option (List FieldType) :=
  match table.shape? id with
  | some (.record fields) => some fields
  | _ => none

def array? (table : TypeTable) (id : Nat) : Option FieldType :=
  match table.shape? id with
  | some (.array element) => some element
  | _ => none

/-! ## Subtypes -/

section

variable (table : TypeTable)

/-- The common heap type that holds the types of a shape. -/
def commonHeap? : HeapType → Option AbstractHeap
  | .common heap => some heap
  | .defined id => (table.shape? id).map Shape.heap

/-- Whether what has one heap type has another one, too. A defined type lies
below what it is defined below, and between the common types of its kind. -/
def isBelow (lower upper : HeapType) : Bool :=
  lower = upper ||
    match lower, upper with
    | .defined lower, .defined upper =>
        match table.entries[lower]? with
        | some entry => entry.ancestors.contains upper
        | none => false
    | .common lower, .defined _ =>
        match table.commonHeap? upper with
        | some heap => lower = heap.bottom
        | none => false
    | lower, .common upper =>
        match table.commonHeap? lower with
        | some heap => heap.isBelow upper
        | none => false

def isSubRef (lower upper : RefType) : Bool :=
  (!lower.isNullable || upper.isNullable) &&
    table.isBelow lower.heap upper.heap

/-- Whether a value of one type may stand where another one is wanted. -/
def isSubtype : ValueType → ValueType → Bool
  | .reference lower, .reference upper => table.isSubRef lower upper
  | lower, upper => lower = upper

/-- Whether types are subtypes one by one, and of equal number. -/
def areSubtypes : List ValueType → List ValueType → Bool
  | [], [] => true
  | lower :: lowers, upper :: uppers =>
      table.isSubtype lower upper && areSubtypes lowers uppers
  | _, _ => false

/-- Whether what a field may hold, another one may hold, too. -/
def isSubStorage : StorageType → StorageType → Bool
  | .value lower, .value upper => table.isSubtype lower upper
  | lower, upper => lower = upper

/-- A field that can be written holds exactly what the other one does. -/
def isSubField (lower upper : FieldType) : Bool :=
  lower.isMutable = upper.isMutable &&
    table.isSubStorage lower.storage upper.storage &&
    (!upper.isMutable || table.isSubStorage upper.storage lower.storage)

/-- Whether a shape may be that of a type defined below one of another shape. A
record may add fields at its end. -/
def isSubShape : Shape → Shape → Bool
  | .function lower, .function upper =>
      table.areSubtypes upper.params lower.params &&
        table.areSubtypes lower.results upper.results
  | .record lower, .record upper =>
      upper.length ≤ lower.length &&
        (lower.zip upper).all fun (lower, upper) =>
          table.isSubField lower upper
  | .array lower, .array upper => table.isSubField lower upper
  | _, _ => false

end

/-! ## Groups -/

/-- How many types may lie above one another, not counting the first. -/
def depthLimit : Nat := 63

/-- Adds a type behind the others. The type it is defined below has to be one of
them. -/
def addType (table : TypeTable) (type : DefinedType) : Option TypeTable := do
  let ancestors ←
    match type.parent with
    | none => some []
    | some parent => do
        let above ← table.entries[parent]?
        guard (!above.type.isFinal ∧ above.ancestors.length < depthLimit)
        some (parent :: above.ancestors)
  some { table with
    entries := table.entries ++ [⟨table.size, type, ancestors⟩] }

/-- Whether a type is built as the type it is defined below demands. -/
def respectsParent (table : TypeTable) (type : DefinedType) : Bool :=
  match type.parent with
  | none => true
  | some parent =>
      match table.shape? parent with
      | some shape => table.isSubShape type.shape shape
      | none => false

def entriesOf (table : TypeTable) (group : TypeGroup) : List TypeEntry :=
  (table.entries.drop group.first).take group.size

/-- The types of a group, as if they were defined at the end of the table. -/
def moved (table : TypeTable) (group : TypeGroup) : List DefinedType :=
  let rename (id : Nat) : Nat :=
    if group.first ≤ id ∧ id < group.first + group.size then
      id - group.first + table.size
    else id
  (table.entriesOf group).map fun entry => entry.type.renamed rename

/-- Adds a group, whose types mention each other by the positions they are about
to have. -/
def addGroup (table : TypeTable) (types : List DefinedType) :
    Option TypeTable :=
  match table.groups.find? fun group => table.moved group == types with
  | some known =>
      some { table with entries := table.entries ++ table.entriesOf known }
  | none => do
      let table := { table with
        groups := table.groups ++ [⟨table.size, types.length⟩] }
      let table ← types.foldlM addType table
      guard (types.all table.respectsParent)
      some table

/-- How the types of a module are found from within a group of so many types
that is about to be added. -/
def namesWithin (table : TypeTable) (count : Nat) : TypeNames := fun position =>
  if position < table.size then table.id? position
  else if position < table.size + count then some position
  else none

/-- Takes a group of types, or a single type, which is a group of its own. -/
def decodeGroup (table : TypeTable) : Decoder TypeTable := do
  let types ←
    if (← Decoder.peek) = 0x4e then
      let _ ← Decoder.byte
      let count ← Decoder.word
      Decoder.times (DefinedType.decode (table.namesWithin count)) count
    else
      let type ← DefinedType.decode (table.namesWithin 1)
      pure [type]
  match table.addGroup types with
  | some table => return table
  | none => failure

end TypeTable

end PluginSurface.Wasm
