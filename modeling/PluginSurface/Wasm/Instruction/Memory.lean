import PluginSurface.Wasm.Operand

/-!
Instructions on memories and tables, and on the segments that they are filled
from.
-/

namespace PluginSurface.Wasm.CodeCheck

open ValueType

/-! ## Single accesses -/

/-- Where an instruction finds what it reads from memory or writes to it. -/
structure MemoryPlace where
  /-- The logarithm of what the address is promised to be a multiple of. -/
  alignment : Nat
  offset : Nat
  address : AddressType

def memoryPlace : CodeCheck MemoryPlace := do
  let flags ← word
  let hasIndex := 64 ≤ flags
  let index ← if hasIndex then word else pure 0
  let offset ← (Decoder.long : Decoder Nat)
  match (← read).context.memories[index]? with
  | some address =>
      return ⟨if hasIndex then flags - 64 else flags, offset, address⟩
  | none => failure

/-- Takes the place of an access, which may promise less than the full
alignment, and tells the type of its address. -/
def address (width : Nat) : CodeCheck ValueType := do
  let place ← memoryPlace
  guard (place.alignment ≤ width)
  guard (place.address = .wide || place.offset < Leb128.wordLimit)
  return place.address.value

def load (type : ValueType) (width : Nat) : CodeCheck Unit := do
  pop (← address width)
  push type

def store (type : ValueType) (width : Nat) : CodeCheck Unit := do
  let address ← address width
  popReversed [type, address]

def memorySize : CodeCheck Unit := do
  push (← indexed Context.memories).value

def memoryGrow : CodeCheck Unit := do
  let type := (← indexed Context.memories).value
  pop type
  push type

/-! ## Atomic accesses -/

/-- Takes the place of an access that other threads cannot come between, which
promises the full alignment. -/
def atomicAddress (width : Nat) : CodeCheck ValueType := do
  let place ← memoryPlace
  guard (place.alignment = width)
  return place.address.value

/-- Checks an access that takes operands besides its address and gives a
value. -/
def exchange (operands : List ValueType) (access : Access) :
    CodeCheck Unit := do
  let address ← atomicAddress access.width
  popReversed (operands ++ [address])
  push access.type

def atomic (opcode : Nat) : CodeCheck Unit := do
  match opcode with
  | 0x00 => exchange [i32] ⟨i32, 2⟩
  | 0x01 => exchange [i64, i32] ⟨i32, 2⟩
  | 0x02 => exchange [i64, i64] ⟨i32, 3⟩
  | 0x03 => (Decoder.expect 0 : Decoder Unit)
  | opcode => do
      guard (0x10 ≤ opcode)
      let kinds := Access.atomics.length
      match Access.atomics[(opcode - 0x10) % kinds]? with
      | none => failure
      | some access => do
          let type := access.type
          match (opcode - 0x10) / kinds with
          | 0 => exchange [] access
          | 1 => do
              let address ← atomicAddress access.width
              popReversed [type, address]
          | 2 | 3 | 4 | 5 | 6 | 7 => exchange [type] access
          | 8 => exchange [type, type] access
          | _ => failure

/-! ## Tables -/

def tableGet : CodeCheck Unit := do
  let table ← indexed Context.tables
  pop table.address.value
  pushReference table.element

def tableSet : CodeCheck Unit := do
  let table ← indexed Context.tables
  popReversed [.reference table.element, table.address.value]

/-! ## Many elements at once -/

def dataSegment : CodeCheck Unit := do
  match (← read).context.dataCount with
  | some count => guard ((← word) < count)
  | none => failure

/-- Takes the number of elements and where they are, first the place that they
come from and then the one they go to. -/
def popRange (source target : AddressType) : CodeCheck Unit :=
  popReversed [(source.shared target).value, source.value, target.value]

/-- Checks an instruction on segments or on many elements. -/
def bulk (opcode : Nat) : CodeCheck Unit := do
  match opcode with
  | 8 => do
      dataSegment
      popRange .narrow (← indexed Context.memories)
  | 9 => dataSegment
  | 10 => do
      let target ← indexed Context.memories
      popRange (← indexed Context.memories) target
  | 11 => do
      let address := (← indexed Context.memories).value
      popReversed [address, i32, address]
  | 12 => do
      let element ← indexed Context.elements
      let table ← indexed Context.tables
      guard (← isSubtype (.reference element) (.reference table.element))
      popRange .narrow table.address
  | 13 => do
      let _ ← indexed Context.elements
  | 14 => do
      let target ← indexed Context.tables
      let source ← indexed Context.tables
      guard
        (← isSubtype (.reference source.element) (.reference target.element))
      popRange source.address target.address
  | 15 => do
      let table ← indexed Context.tables
      let address := table.address.value
      popReversed [address, .reference table.element]
      push address
  | 16 => do push (← indexed Context.tables).address.value
  | 17 => do
      let table ← indexed Context.tables
      let address := table.address.value
      popReversed [address, .reference table.element, address]
  | opcode =>
      match Operation.boundedConversions[opcode]? with
      | some found => operation found
      | none => failure

end PluginSurface.Wasm.CodeCheck
