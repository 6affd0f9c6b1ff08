import PluginSurface.Wasm.Decoder

/-!
Types of values: numbers, vectors, and references to what lies on the heap. A
module may define heap types of its own: functions, records and arrays. Such a
type is known by its identity, a number.
-/

namespace PluginSurface.Wasm

/-! ## Heap types -/

/-- The heap types that every module knows. -/
inductive AbstractHeap where
  | func | foreign | exn | any | eq | i31 | record | array
  /-- The types below all others of a hierarchy, which nothing has. -/
  | noFunc | noForeign | noExn | noAny
deriving DecidableEq, Inhabited

namespace AbstractHeap

/-- Whether a heap type is another one or lies below it. -/
def isBelow (lower upper : AbstractHeap) : Bool :=
  lower = upper ||
    match lower, upper with
    | noFunc, func | noForeign, foreign | noExn, exn => true
    | eq, any | i31, any | record, any | array, any | noAny, any => true
    | i31, eq | record, eq | array, eq | noAny, eq => true
    | noAny, i31 | noAny, record | noAny, array => true
    | _, _ => false

/-- The type above all others of a hierarchy. -/
def top : AbstractHeap → AbstractHeap
  | func | noFunc => func
  | foreign | noForeign => foreign
  | exn | noExn => exn
  | any | eq | i31 | record | array | noAny => any

/-- The type below all others of a hierarchy. -/
def bottom (heap : AbstractHeap) : AbstractHeap :=
  match heap.top with
  | func => noFunc
  | foreign => noForeign
  | exn => noExn
  | _ => noAny

def ofByte? (byte : UInt8) : Option AbstractHeap :=
  match byte.toNat with
  | 0x69 => some exn
  | 0x6a => some array
  | 0x6b => some record
  | 0x6c => some i31
  | 0x6d => some eq
  | 0x6e => some any
  | 0x6f => some foreign
  | 0x70 => some func
  | 0x71 => some noAny
  | 0x72 => some noForeign
  | 0x73 => some noFunc
  | 0x74 => some noExn
  | _ => none

end AbstractHeap

inductive HeapType where
  | common (heap : AbstractHeap)
  /-- A type that the module defines. -/
  | defined (id : Nat)
deriving DecidableEq, Inhabited

/-! ## Types of values -/

structure RefType where
  isNullable : Bool
  heap : HeapType
deriving DecidableEq, Inhabited

namespace RefType

def func : RefType := ⟨false, .common .func⟩

def exn : RefType := ⟨false, .common .exn⟩

def nullable (type : RefType) : RefType :=
  { type with isNullable := true }

def nonNull (type : RefType) : RefType :=
  { type with isNullable := false }

/-- What is left of a type when the values of another one are taken out. -/
def without (type removed : RefType) : RefType :=
  if removed.isNullable then type.nonNull else type

end RefType

inductive ValueType where
  | i32 | i64 | f32 | f64 | v128
  | reference (type : RefType)
deriving DecidableEq, Inhabited

namespace ValueType

def funcref : ValueType :=
  reference RefType.func.nullable

def isReference : ValueType → Bool
  | reference _ => true
  | _ => false

/-- Whether variables of a type have a value from the start. -/
def isDefaultable : ValueType → Bool
  | reference type => type.isNullable
  | _ => true

def ofByte? (byte : UInt8) : Option ValueType :=
  match byte.toNat with
  | 0x7b => some v128
  | 0x7c => some f64
  | 0x7d => some f32
  | 0x7e => some i64
  | 0x7f => some i32
  | _ => none

end ValueType

/-! ## Types that a module defines -/

structure FunctionType where
  params : List ValueType
  results : List ValueType
deriving DecidableEq, Inhabited

/-- What a field holds: a value, or an integer of a few bits. -/
inductive StorageType where
  | i8 | i16
  | value (type : ValueType)
deriving DecidableEq, Inhabited

namespace StorageType

/-- The type of what is read from a field and written to it. -/
def unpacked : StorageType → ValueType
  | i8 | i16 => .i32
  | value type => type

def isPacked : StorageType → Bool
  | i8 | i16 => true
  | value _ => false

end StorageType

structure FieldType where
  storage : StorageType
  isMutable : Bool
deriving DecidableEq, Inhabited

/-- How a type is built. -/
inductive Shape where
  | function (type : FunctionType)
  | record (fields : List FieldType)
  | array (element : FieldType)
deriving DecidableEq, Inhabited

/-- The heap type that holds all types of a shape. -/
def Shape.heap : Shape → AbstractHeap
  | function _ => .func
  | record _ => .record
  | array _ => .array

structure DefinedType where
  /-- Whether no type may be defined below it. -/
  isFinal : Bool
  /-- The type that it is defined below. -/
  parent : Option Nat
  shape : Shape
deriving DecidableEq, Inhabited

/-! ## Renaming -/

section

variable (rename : Nat → Nat)

def HeapType.renamed : HeapType → HeapType
  | common heap => common heap
  | defined id => defined (rename id)

def ValueType.renamed : ValueType → ValueType
  | reference type => reference { type with heap := type.heap.renamed rename }
  | type => type

def FunctionType.renamed (type : FunctionType) : FunctionType :=
  ⟨type.params.map (ValueType.renamed rename),
    type.results.map (ValueType.renamed rename)⟩

def FieldType.renamed (field : FieldType) : FieldType :=
  match field.storage with
  | .value type => { field with storage := .value (type.renamed rename) }
  | _ => field

def Shape.renamed : Shape → Shape
  | function type => function (type.renamed rename)
  | record fields => record (fields.map (FieldType.renamed rename))
  | array element => array (element.renamed rename)

/-- A type with other identities in place of those that it mentions. -/
def DefinedType.renamed (type : DefinedType) : DefinedType :=
  ⟨type.isFinal, type.parent.map rename, type.shape.renamed rename⟩

end

/-! ## Decoding -/

/-- How the types of a module are found: from their position to their
identity. -/
abbrev TypeNames := Nat → Option Nat

section

variable (names : TypeNames)

/-- A heap type: the byte of a common one, or the position of a defined one. -/
def HeapType.decode : Decoder HeapType := do
  match AbstractHeap.ofByte? (← Decoder.peek) with
  | some heap =>
      let _ ← Decoder.byte
      return common heap
  | none =>
      let position ← Decoder.signed 33
      guard (0 ≤ position)
      match names position.toNat with
      | some id => return defined id
      | none => failure

/-- The type of a reference. A common heap type alone means one that may be
null. -/
def RefType.decode : Decoder RefType := do
  let first ← Decoder.peek
  if first = 0x63 ∨ first = 0x64 then
    let _ ← Decoder.byte
    return ⟨first = 0x63, ← HeapType.decode names⟩
  else
    match AbstractHeap.ofByte? first with
    | some heap =>
        let _ ← Decoder.byte
        return ⟨true, .common heap⟩
    | none => failure

def ValueType.decode : Decoder ValueType := do
  match ofByte? (← Decoder.peek) with
  | some type =>
      let _ ← Decoder.byte
      return type
  | none => return reference (← RefType.decode names)

/-- The greatest number of parameters, and of results. -/
def FunctionType.partLimit : Nat := 1000

def FunctionType.decode : Decoder FunctionType := do
  let part := Decoder.vectorUpTo partLimit (ValueType.decode names)
  let params ← part
  return ⟨params, ← part⟩

def decodeMutability : Decoder Bool := do
  let flag ← Decoder.byte
  guard (flag ≤ 1)
  return flag = 1

def StorageType.decode : Decoder StorageType := do
  match (← Decoder.peek).toNat with
  | 0x77 => do
      let _ ← Decoder.byte
      return i16
  | 0x78 => do
      let _ ← Decoder.byte
      return i8
  | _ => return value (← ValueType.decode names)

def FieldType.decode : Decoder FieldType := do
  let storage ← StorageType.decode names
  return ⟨storage, ← decodeMutability⟩

/-- The greatest number of fields of a record. -/
def Shape.fieldLimit : Nat := 10000

def Shape.decode : Decoder Shape := do
  match (← Decoder.byte).toNat with
  | 0x5e => return array (← FieldType.decode names)
  | 0x5f =>
      return record (← Decoder.vectorUpTo fieldLimit (FieldType.decode names))
  | 0x60 => return function (← FunctionType.decode names)
  | _ => failure

/-- A type with at most one parent. Where nothing is said of parents there is
none, and the type is final. -/
def DefinedType.decode : Decoder DefinedType := do
  let first ← Decoder.peek
  if first = 0x4f ∨ first = 0x50 then
    let _ ← Decoder.byte
    let parent ←
      match ← Decoder.vectorUpTo 1 Decoder.word with
      | position :: _ =>
          match names position with
          | some id => pure (some id)
          | none => failure
      | [] => pure none
    return ⟨first = 0x4f, parent, ← Shape.decode names⟩
  else return ⟨true, none, ← Shape.decode names⟩

end

end PluginSurface.Wasm
