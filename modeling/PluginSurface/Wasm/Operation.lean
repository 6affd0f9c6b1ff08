import PluginSurface.Wasm.ValueType

/-!
Instructions that take operands and give a value, whatever the module: arithmetic
on numbers and on vectors, and accesses to memory.
-/

namespace PluginSurface.Wasm

open ValueType

/-- The operands that an instruction takes, the last one first, and the value it
gives. -/
structure Operation where
  operands : List ValueType
  result : ValueType

namespace Operation

def unary (operand result : ValueType) : Operation :=
  ⟨[operand], result⟩

def binary (operand result : ValueType) : Operation :=
  ⟨[operand, operand], result⟩

def ternary (operand result : ValueType) : Operation :=
  ⟨[operand, operand, operand], result⟩

/-! ## Numbers -/

/-- Conversions between numbers, from the opcode `0xa7` on. -/
def conversions : List Operation :=
  [unary i64 i32, unary f32 i32, unary f32 i32, unary f64 i32, unary f64 i32,
    unary i32 i64, unary i32 i64, unary f32 i64, unary f32 i64, unary f64 i64,
    unary f64 i64, unary i32 f32, unary i32 f32, unary i64 f32, unary i64 f32,
    unary f64 f32, unary i32 f64, unary i32 f64, unary i64 f64, unary i64 f64,
    unary f32 f64, unary f32 i32, unary f64 i64, unary i32 f32, unary i64 f64,
    unary i32 i32, unary i32 i32, unary i64 i64, unary i64 i64, unary i64 i64]

/-- Conversions that keep within bounds, in the order of their second
opcodes. -/
def boundedConversions : List Operation :=
  [unary f32 i32, unary f32 i32, unary f64 i32, unary f64 i32, unary f32 i64,
    unary f32 i64, unary f64 i64, unary f64 i64]

/-- The operation of an opcode that has no parts of its own. -/
def ofOpcode? (opcode : Nat) : Option Operation :=
  if opcode < 0x45 then none
  else if opcode = 0x45 then some (unary i32 i32)
  else if opcode ≤ 0x4f then some (binary i32 i32)
  else if opcode = 0x50 then some (unary i64 i32)
  else if opcode ≤ 0x5a then some (binary i64 i32)
  else if opcode ≤ 0x60 then some (binary f32 i32)
  else if opcode ≤ 0x66 then some (binary f64 i32)
  else if opcode ≤ 0x69 then some (unary i32 i32)
  else if opcode ≤ 0x78 then some (binary i32 i32)
  else if opcode ≤ 0x7b then some (unary i64 i64)
  else if opcode ≤ 0x8a then some (binary i64 i64)
  else if opcode ≤ 0x91 then some (unary f32 f32)
  else if opcode ≤ 0x98 then some (binary f32 f32)
  else if opcode ≤ 0x9f then some (unary f64 f64)
  else if opcode ≤ 0xa6 then some (binary f64 f64)
  else conversions[opcode - 0xa7]?

/-! ## Vectors -/

/-- Opcodes between two bounds, both of which belong to them. -/
abbrev OpcodeRange := Nat × Nat

def OpcodeRange.holds (range : OpcodeRange) (opcode : Nat) : Bool :=
  range.1 ≤ opcode && opcode ≤ range.2

/-- Vectors of which all lanes are the operand, from the opcode `0x0f` on. -/
def splats : List Operation :=
  [unary i32 v128, unary i32 v128, unary i32 v128, unary i64 v128,
    unary f32 v128, unary f64 v128]

/-- Operations on vectors: which opcodes they have, and what they take and
give. -/
def onVectors : List (Operation × List OpcodeRange) :=
  [(unary v128 v128,
      [(0x4d, 0x4d), (0x5e, 0x62), (0x67, 0x6a), (0x74, 0x75), (0x7a, 0x7a),
        (0x7c, 0x81), (0x87, 0x8a), (0x94, 0x94), (0xa0, 0xa1), (0xa7, 0xaa),
        (0xc0, 0xc1), (0xc7, 0xca), (0xe0, 0xe1), (0xe3, 0xe3), (0xec, 0xed),
        (0xef, 0xef), (0xf8, 0xff), (0x101, 0x104)]),
    (binary v128 v128,
      [(0x0e, 0x0e), (0x23, 0x4c), (0x4e, 0x51), (0x65, 0x66), (0x6e, 0x73),
        (0x76, 0x79), (0x7b, 0x7b), (0x82, 0x82), (0x85, 0x86), (0x8e, 0x93),
        (0x95, 0x99), (0x9b, 0x9f), (0xae, 0xae), (0xb1, 0xb1), (0xb5, 0xba),
        (0xbc, 0xbf), (0xce, 0xce), (0xd1, 0xd1), (0xd5, 0xdf), (0xe4, 0xeb),
        (0xf0, 0xf7), (0x100, 0x100), (0x10d, 0x112)]),
    (ternary v128 v128, [(0x52, 0x52), (0x105, 0x10c), (0x113, 0x113)]),
    (unary v128 i32,
      [(0x53, 0x53), (0x63, 0x64), (0x83, 0x84), (0xa3, 0xa4),
        (0xc3, 0xc4)]),
    (⟨[i32, v128], v128⟩,
      [(0x6b, 0x6d), (0x8b, 0x8d), (0xab, 0xad), (0xcb, 0xcd)])]

/-- The operation on vectors of an opcode that has no parts of its own. -/
def ofVectorOpcode? (opcode : Nat) : Option Operation :=
  if 0x0f ≤ opcode ∧ opcode ≤ 0x14 then splats[opcode - 0x0f]?
  else
    (onVectors.find? fun (_, ranges) =>
      ranges.any fun range => OpcodeRange.holds range opcode).map Prod.fst

end Operation

/-! ## Lanes -/

/-- Lanes of a vector: the type of their values and their number. -/
structure Lanes where
  type : ValueType
  count : Nat

namespace Lanes

/-- The lanes that are read, from the opcode `0x15` on. Small integers are read
with or without their sign, and lanes of each kind are written, too. -/
def ofOpcode? : Nat → Option Lanes
  | 0x15 | 0x16 | 0x17 => some ⟨i32, 16⟩
  | 0x18 | 0x19 | 0x1a => some ⟨i32, 8⟩
  | 0x1b | 0x1c => some ⟨i32, 4⟩
  | 0x1d | 0x1e => some ⟨i64, 2⟩
  | 0x1f | 0x20 => some ⟨f32, 4⟩
  | 0x21 | 0x22 => some ⟨f64, 2⟩
  | _ => none

def isReplacement (opcode : Nat) : Bool :=
  [0x17, 0x1a, 0x1c, 0x1e, 0x20, 0x22].contains opcode

end Lanes

/-! ## Memory -/

/-- The type that an instruction reads from memory or writes to it, and the
logarithm of how many bytes that are. -/
structure Access where
  type : ValueType
  width : Nat

namespace Access

/-- Loads, from the opcode `0x28` on. -/
def loads : List Access :=
  [⟨i32, 2⟩, ⟨i64, 3⟩, ⟨f32, 2⟩, ⟨f64, 3⟩, ⟨i32, 0⟩, ⟨i32, 0⟩, ⟨i32, 1⟩,
    ⟨i32, 1⟩, ⟨i64, 0⟩, ⟨i64, 0⟩, ⟨i64, 1⟩, ⟨i64, 1⟩, ⟨i64, 2⟩, ⟨i64, 2⟩]

/-- Stores, from the opcode `0x36` on. -/
def stores : List Access :=
  [⟨i32, 2⟩, ⟨i64, 3⟩, ⟨f32, 2⟩, ⟨f64, 3⟩, ⟨i32, 0⟩, ⟨i32, 1⟩, ⟨i64, 0⟩,
    ⟨i64, 1⟩, ⟨i64, 2⟩]

/-- What instructions that other threads cannot come between read and write, in
the order of their opcodes. -/
def atomics : List Access :=
  [⟨i32, 2⟩, ⟨i64, 3⟩, ⟨i32, 0⟩, ⟨i32, 1⟩, ⟨i64, 0⟩, ⟨i64, 1⟩, ⟨i64, 2⟩]

/-- The width of what a load of a vector reads. -/
def vectorLoad? : Nat → Option Nat
  | 0x00 => some 4
  | 0x01 | 0x02 | 0x03 | 0x04 | 0x05 | 0x06 => some 3
  | 0x07 => some 0
  | 0x08 => some 1
  | 0x09 | 0x5c => some 2
  | 0x0a | 0x5d => some 3
  | _ => none

end Access

end PluginSurface.Wasm
