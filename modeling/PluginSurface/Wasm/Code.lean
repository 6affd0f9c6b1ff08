import PluginSurface.Wasm.Instruction.Heap
import PluginSurface.Wasm.Instruction.Vector

/-!
Checking code: the bodies of functions, and constant expressions, in which only
some instructions may stand.
-/

namespace PluginSurface.Wasm

open Leb128 (Bytes)
open ValueType

/-! ## Opcodes -/

/-- What tells instructions apart: a byte, or the number of an instruction of a
family behind the byte of the family. -/
inductive Opcode where
  | byte (value : Nat)
  | heap (number : Nat)
  | bulk (number : Nat)
  | vector (number : Nat)
  | atomic (number : Nat)
deriving DecidableEq, Inhabited

namespace Opcode

def decode : Decoder Opcode := do
  match (← Decoder.byte).toNat with
  | 0xfb => return heap (← Decoder.word)
  | 0xfc => return bulk (← Decoder.word)
  | 0xfd => return vector (← Decoder.word)
  | 0xfe => return atomic (← Decoder.word)
  | value => return byte value

/-- Whether an instruction may stand in a constant expression. -/
def isConstant : Opcode → Bool
  | byte value =>
      [0x0b, 0x23, 0x41, 0x42, 0x43, 0x44, 0x6a, 0x6b, 0x6c, 0x7c, 0x7d, 0x7e,
        0xd0, 0xd2].contains value
  | heap number =>
      [0x00, 0x01, 0x06, 0x07, 0x08, 0x1a, 0x1b, 0x1c].contains number
  | vector number => number = 0x0c
  | bulk _ | atomic _ => false

end Opcode

namespace CodeCheck

/-! ## Variables -/

def localAt : CodeCheck (Nat × Local) := do
  let index ← word
  match (← read).locals[index]? with
  | some found => return (index, found)
  | none => failure

/-- Reads a local, which has to have a value. -/
def localGet : CodeCheck Unit := do
  let (index, found) ← localAt
  guard (found.isSet || (← get).assigned.contains index)
  push found.type

def assign : CodeCheck ValueType := do
  let (index, found) ← localAt
  pop found.type
  unless found.isSet do
    modify fun state => { state with assigned := index :: state.assigned }
  return found.type

/-- Reads a global, which in a constant expression has to be constant. -/
def globalGet : CodeCheck Unit := do
  let found ← indexed Context.globals
  guard !((← read).isConstant && found.isMutable)
  push found.type

def globalSet : CodeCheck Unit := do
  let ⟨type, isMutable⟩ ← indexed Context.globals
  guard isMutable
  pop type

/-! ## Choices and constants -/

/-- Gives one of two operands of one type, which are no references. -/
def select : CodeCheck Unit := do
  pop i32
  let second ← popAny
  let first ← popAny
  match first, second with
  | .unknown, .unknown => pushOperand .unknown
  | .unknown, .known type | .known type, .unknown => do
      guard !type.isReference
      push type
  | .known first, .known second => do
      guard (first = second && !first.isReference)
      push first
  | _, _ => failure

/-- Gives one of two operands of a type that is told. -/
def selectTyped : CodeCheck Unit := do
  let names ← names
  match ←
    (Decoder.vector (ValueType.decode names) : Decoder (List ValueType)) with
  | [type] => do
      popReversed [i32, type, type]
      push type
  | _ => failure

/-- Gives a constant that stands in the code. -/
def constant {Value : Type} (decoder : Decoder Value) (type : ValueType) :
    CodeCheck Unit := do
  let _ ← (decoder : Decoder Value)
  push type

/-! ## All instructions -/

/-- Checks the instruction that has a byte as its opcode. -/
def plain (opcode : Nat) : CodeCheck Unit := do
  match opcode with
  | 0x00 => leave
  | 0x01 => return
  | 0x02 => do enter .block (← blockType)
  | 0x03 => do enter .loop (← blockType)
  | 0x04 => do
      let type ← blockType
      pop i32
      enter .whenTrue type
  | 0x05 => otherwise
  | 0x08 => throwTag
  | 0x0a => throwReference
  | 0x0b => finish
  | 0x0c => branch
  | 0x0d => branchIf
  | 0x0e => branchTable
  | 0x0f => giveBack
  | 0x10 => do call (← direct)
  | 0x11 => do call (← indirect)
  | 0x12 => do returnCall (← direct)
  | 0x13 => do returnCall (← indirect)
  | 0x14 => do call (← byReference)
  | 0x15 => do returnCall (← byReference)
  | 0x1a => do
      let _ ← popAny
  | 0x1b => select
  | 0x1c => selectTyped
  | 0x1f => enterTry
  | 0x20 => localGet
  | 0x21 => do
      let _ ← assign
  | 0x22 => do push (← assign)
  | 0x23 => globalGet
  | 0x24 => globalSet
  | 0x25 => tableGet
  | 0x26 => tableSet
  | 0x3f => memorySize
  | 0x40 => memoryGrow
  | 0x41 => constant (Decoder.signed 32) i32
  | 0x42 => constant (Decoder.signed 64) i64
  | 0x43 => constant (Decoder.bytes 4) f32
  | 0x44 => constant (Decoder.bytes 8) f64
  | 0xd0 => refNull
  | 0xd1 => refIsNull
  | 0xd2 => refFunc
  | 0xd3 => refEq
  | 0xd4 => refAsNonNull
  | 0xd5 => branchOnNull
  | 0xd6 => branchOnNonNull
  | opcode => do
      guard (0x28 ≤ opcode)
      match Access.loads[opcode - 0x28]?, Access.stores[opcode - 0x36]?,
          Operation.ofOpcode? opcode with
      | some access, _, _ => load access.type access.width
      | none, some access, _ => store access.type access.width
      | none, none, some found => operation found
      | none, none, none => failure

def instruction : Opcode → CodeCheck Unit
  | .byte value => plain value
  | .heap number => heap number
  | .bulk number => bulk number
  | .vector number => vector number
  | .atomic number => atomic number

/-- Checks instructions until all blocks have ended. The first argument bounds
their number. -/
def instructions : Nat → CodeCheck Unit
  | 0 => return
  | bound + 1 => do
      if (← get).frames.isEmpty then return
      let opcode ← (Opcode.decode : Decoder Opcode)
      guard (!(← read).isConstant || opcode.isConstant)
      instruction opcode
      instructions bound

/-- Checks code that gives the results of its scope, and tells the functions that
it makes references to. -/
def body (scope : Scope) : Decoder (List Nat) := do
  let start : CodeState :=
    ⟨[], [⟨.block, ⟨[], scope.results⟩, 0, false, []⟩], [], []⟩
  let bound := (← get).length
  let (_, state) ← ((instructions bound).run scope).run start
  guard state.frames.isEmpty
  return state.referenced

end CodeCheck

/-! ## Functions -/

def localLimit : Nat := 50000

/-- Takes the declarations of locals: groups of one type with their numbers. -/
def decodeLocals (names : TypeNames) (params : List ValueType) :
    Decoder (List Local) := do
  let groups ← Decoder.vector do
    let count ← Decoder.word
    return (count, ← ValueType.decode names)
  let total := groups.foldl (fun sum (count, _) => sum + count) params.length
  guard (total ≤ localLimit)
  return params.map (⟨·, true⟩) ++ groups.flatMap fun (count, type) =>
    List.replicate count ⟨type, type.isDefaultable⟩

/-- Whether bytes are the code of a function of a type: the declarations of its
locals, and instructions up to the end of its outermost block. -/
def isCode (context : Context) (type : FunctionType) (code : Bytes) : Bool :=
  let check : Decoder (List Nat) := do
    let locals ← decodeLocals context.names type.params
    CodeCheck.body ⟨context, locals, type.results, false⟩
  (check.runAll code).isSome

/-! ## Constant expressions -/

/-- Takes a constant expression of a type and tells the functions it refers
to. -/
def Context.constant (context : Context) (type : ValueType) :
    Decoder (List Nat) :=
  CodeCheck.body ⟨context, [], [type], true⟩

end PluginSurface.Wasm
