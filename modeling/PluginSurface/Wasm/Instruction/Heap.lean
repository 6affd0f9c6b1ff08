import PluginSurface.Wasm.Instruction.Control
import PluginSurface.Wasm.Instruction.Memory

/-!
Instructions on references and on what they lead to: records, arrays and small
integers.
-/

namespace PluginSurface.Wasm.CodeCheck

open ValueType

/-! ## References -/

def refNull : CodeCheck Unit := do
  pushReference ⟨true, ← heapType⟩

def refIsNull : CodeCheck Unit := do
  let _ ← popReference
  push i32

/-- Makes a reference to a function. Code may do so only if the function is
referred to outside of code, too. -/
def refFunc : CodeCheck Unit := do
  let scope ← read
  let index ← word
  guard (scope.isConstant || scope.context.references.contains index)
  match scope.context.functions[index]? with
  | some id =>
      modify fun state => { state with referenced := index :: state.referenced }
      pushReference ⟨false, .defined id⟩
  | none => failure

def refEq : CodeCheck Unit := do
  let _ ← popBelow .eq
  let _ ← popBelow .eq
  push i32

def refAsNonNull : CodeCheck Unit := do
  match ← popReference with
  | .known (.reference type) => pushReference type.nonNull
  | operand => pushOperand operand

/-- Takes a type and a reference of the same hierarchy. -/
def downcast (isNullable : Bool) : CodeCheck RefType := do
  let heap ← heapType
  match (← read).context.types.commonHeap? heap with
  | some found =>
      popNullable (.common found.top)
      return ⟨isNullable, heap⟩
  | none => failure

/-- Turns a reference into one of another hierarchy. -/
def convert (source target : AbstractHeap) : CodeCheck Unit := do
  match ← popBelow source with
  | .known (.reference type) =>
      pushReference ⟨type.isNullable, .common target⟩
  | _ => pushOperand (.someReference (some target))

/-! ## Records -/

/-- Takes the position of a type and tells its identity and what it is built
as. -/
def definedType {Found : Type} (find : TypeTable → Nat → Option Found) :
    CodeCheck (Nat × Found) := do
  let types := (← read).context.types
  match types.id? (← word) with
  | some id =>
      match find types id with
      | some found => return (id, found)
      | none => failure
  | none => failure

def pushNew (id : Nat) : CodeCheck Unit :=
  pushReference ⟨false, .defined id⟩

def recordNew : CodeCheck Unit := do
  let (id, fields) ← definedType TypeTable.record?
  popAll (fields.map fun field => field.storage.unpacked)
  pushNew id

def recordNewDefault : CodeCheck Unit := do
  let (id, fields) ← definedType TypeTable.record?
  guard (fields.all fun field => field.storage.unpacked.isDefaultable)
  pushNew id

/-- Takes the index of a field of a record. -/
def recordField : CodeCheck (Nat × FieldType) := do
  let (id, fields) ← definedType TypeTable.record?
  match fields[← word]? with
  | some field => return (id, field)
  | none => failure

/-- Reads a field. Packed fields are read with or without their sign. -/
def recordGet (isPacked : Bool) : CodeCheck Unit := do
  let (id, field) ← recordField
  guard (field.storage.isPacked = isPacked)
  popNullable (.defined id)
  push field.storage.unpacked

def recordSet : CodeCheck Unit := do
  let (id, field) ← recordField
  guard field.isMutable
  pop field.storage.unpacked
  popNullable (.defined id)

/-! ## Arrays -/

def arrayType : CodeCheck (Nat × FieldType) :=
  definedType TypeTable.array?

def mutableArray : CodeCheck (Nat × FieldType) := do
  let (id, element) ← arrayType
  guard element.isMutable
  return (id, element)

def arrayNew : CodeCheck Unit := do
  let (id, element) ← arrayType
  popReversed [i32, element.storage.unpacked]
  pushNew id

def arrayNewDefault : CodeCheck Unit := do
  let (id, element) ← arrayType
  guard element.storage.unpacked.isDefaultable
  pop i32
  pushNew id

/-- Makes an array of so many operands. Where nothing is reached there is no need
to take more than there are. -/
def arrayNewFixed : CodeCheck Unit := do
  let (id, element) ← arrayType
  let count := min (← word) ((← get).operands.length + 1)
  popReversed (List.replicate count element.storage.unpacked)
  pushNew id

/-- Takes a segment that elements of an array may come from: of data for numbers,
or of references. -/
def segmentFor (element : FieldType) (isData : Bool) : CodeCheck Unit := do
  let type := element.storage.unpacked
  if isData then
    guard !type.isReference
    dataSegment
  else
    guard (← isSubtype (.reference (← indexed Context.elements)) type)

def arrayNewSegment (isData : Bool) : CodeCheck Unit := do
  let (id, element) ← arrayType
  segmentFor element isData
  popReversed [i32, i32]
  pushNew id

def arrayGet (isPacked : Bool) : CodeCheck Unit := do
  let (id, element) ← arrayType
  guard (element.storage.isPacked = isPacked)
  pop i32
  popNullable (.defined id)
  push element.storage.unpacked

def arraySet : CodeCheck Unit := do
  let (id, element) ← mutableArray
  popReversed [element.storage.unpacked, i32]
  popNullable (.defined id)

def arrayLength : CodeCheck Unit := do
  let _ ← popBelow .array
  push i32

def arrayFill : CodeCheck Unit := do
  let (id, element) ← mutableArray
  popReversed [i32, element.storage.unpacked, i32]
  popNullable (.defined id)

def arrayCopy : CodeCheck Unit := do
  let (target, wanted) ← mutableArray
  let (source, element) ← arrayType
  let types := (← read).context.types
  guard (types.isSubStorage element.storage wanted.storage)
  popReversed [i32, i32]
  popNullable (.defined source)
  pop i32
  popNullable (.defined target)

def arrayInitSegment (isData : Bool) : CodeCheck Unit := do
  let (id, element) ← mutableArray
  segmentFor element isData
  popReversed [i32, i32, i32]
  popNullable (.defined id)

/-! ## All instructions -/

/-- Checks an instruction on what lies on the heap. -/
def heap (opcode : Nat) : CodeCheck Unit := do
  match opcode with
  | 0x00 => recordNew
  | 0x01 => recordNewDefault
  | 0x02 => recordGet false
  | 0x03 | 0x04 => recordGet true
  | 0x05 => recordSet
  | 0x06 => arrayNew
  | 0x07 => arrayNewDefault
  | 0x08 => arrayNewFixed
  | 0x09 => arrayNewSegment true
  | 0x0a => arrayNewSegment false
  | 0x0b => arrayGet false
  | 0x0c | 0x0d => arrayGet true
  | 0x0e => arraySet
  | 0x0f => arrayLength
  | 0x10 => arrayFill
  | 0x11 => arrayCopy
  | 0x12 => arrayInitSegment true
  | 0x13 => arrayInitSegment false
  | 0x14 | 0x15 => do
      let _ ← downcast (opcode = 0x15)
      push i32
  | 0x16 | 0x17 => do pushReference (← downcast (opcode = 0x17))
  | 0x18 => branchOnCast false
  | 0x19 => branchOnCast true
  | 0x1a => convert .foreign .any
  | 0x1b => convert .any .foreign
  | 0x1c => do
      pop i32
      pushReference ⟨false, .common .i31⟩
  | 0x1d | 0x1e => do
      let _ ← popBelow .i31
      push i32
  | _ => failure

end PluginSurface.Wasm.CodeCheck
