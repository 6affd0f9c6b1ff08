import PluginSurface.Wasm.TypeTable

/-!
What the parts of a module may refer to: types, functions, tables, memories,
globals, tags of exceptions and segments, each known by its index.
-/

namespace PluginSurface.Wasm

/-! ## Types of what a module declares -/

/-- How wide the addresses in a memory or a table are. -/
inductive AddressType where
  | narrow | wide
deriving DecidableEq, Inhabited

namespace AddressType

def value : AddressType → ValueType
  | narrow => .i32
  | wide => .i64

/-- The addresses that two places can both have. -/
def shared : AddressType → AddressType → AddressType
  | wide, wide => wide
  | _, _ => narrow

def decodeSize : AddressType → Decoder Nat
  | narrow => Decoder.word
  | wide => Decoder.long

/-- Takes a least size, and a greatest one that is not below it if there is
one. -/
def decodeLimits (address : AddressType) (hasMost : Bool) :
    Decoder (Nat × Option Nat) := do
  let least ← address.decodeSize
  if hasMost then
    let most ← address.decodeSize
    guard (least ≤ most)
    return (least, some most)
  else return (least, none)

end AddressType

structure TableType where
  element : RefType
  address : AddressType
deriving DecidableEq, Inhabited

/-- The greatest number of elements that a table may begin with, and that a
segment may have. -/
def elementLimit : Nat := 10000000

def TableType.decode (names : TypeNames) : Decoder TableType := do
  let element ← RefType.decode names
  let flags := (← Decoder.byte).toNat
  guard (flags = 0 ∨ flags = 1 ∨ flags = 4 ∨ flags = 5)
  let address : AddressType := if 4 ≤ flags then .wide else .narrow
  let (least, _) ← address.decodeLimits (flags % 2 = 1)
  guard (least ≤ elementLimit)
  return ⟨element, address⟩

/-- The greatest number of pages, which have 65536 bytes, that addresses can
tell apart. -/
def AddressType.pageLimit : AddressType → Nat
  | narrow => 65536
  | wide => 281474976710656

/-- Takes the type of a memory, which is known by its addresses. One that threads
share has a greatest size. -/
def decodeMemory : Decoder AddressType := do
  let flags := (← Decoder.byte).toNat
  guard (flags < 8)
  let address : AddressType := if 4 ≤ flags then .wide else .narrow
  let hasMost := flags % 2 = 1
  let isShared := flags / 2 % 2 = 1
  let (least, most) ← address.decodeLimits hasMost
  guard (least ≤ address.pageLimit ∧ most.getD 0 ≤ address.pageLimit)
  guard (!isShared || hasMost)
  return address

structure GlobalType where
  type : ValueType
  isMutable : Bool
deriving DecidableEq, Inhabited

def GlobalType.decode (names : TypeNames) : Decoder GlobalType := do
  let type ← ValueType.decode names
  return ⟨type, ← decodeMutability⟩

/-! ## Context -/

structure Context where
  types : TypeTable
  /-- The identities of the types of functions. -/
  functions : List Nat
  tables : List TableType
  memories : List AddressType
  tags : List FunctionType
  globals : List GlobalType
  /-- The types of element segments. -/
  elements : List RefType
  /-- The number of data segments, if it is announced. -/
  dataCount : Option Nat
  /-- The functions that are referred to outside of code. -/
  references : List Nat
deriving Inhabited

namespace Context

def empty : Context :=
  ⟨.empty, [], [], [], [], [], [], none, []⟩

def names (context : Context) : TypeNames :=
  context.types.id?

/-- The type of functions at a position among the types. -/
def functionTypeAt? (context : Context) (position : Nat) :
    Option FunctionType := do
  context.types.function? (← context.types.id? position)

def functionType? (context : Context) (index : Nat) : Option FunctionType := do
  context.types.function? (← context.functions[index]?)

end Context

end PluginSurface.Wasm
