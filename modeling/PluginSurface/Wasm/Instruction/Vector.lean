import PluginSurface.Wasm.Instruction.Memory

/-!
Instructions on vectors: those on whole vectors, on single lanes, and between
vectors and memory.
-/

namespace PluginSurface.Wasm.CodeCheck

open ValueType

def lane (count : Nat) : CodeCheck Unit := do
  guard ((← (Decoder.byte : Decoder UInt8)).toNat < count)

def lanes (count : Nat) : Nat → CodeCheck Unit
  | 0 => return
  | rest + 1 => do
      lane count
      lanes count rest

def onLane (opcode : Nat) (kind : Lanes) : CodeCheck Unit := do
  lane kind.count
  if Lanes.isReplacement opcode then
    popReversed [kind.type, v128]
    push v128
  else
    pop v128
    push kind.type

/-- Takes the place of a lane in memory and its number. -/
def laneAddress (width : Nat) : CodeCheck ValueType := do
  let address ← address width
  lane (Nat.shiftRight 16 width)
  return address

def vector (opcode : Nat) : CodeCheck Unit := do
  match opcode with
  | 0x0b => store v128 4
  | 0x0c => do
      let _ ← (Decoder.bytes 16 : Decoder Leb128.Bytes)
      push v128
  | 0x0d => do
      lanes 32 16
      popReversed [v128, v128]
      push v128
  | 0x54 | 0x55 | 0x56 | 0x57 => do
      let address ← laneAddress (opcode - 0x54)
      popReversed [v128, address]
      push v128
  | 0x58 | 0x59 | 0x5a | 0x5b => do
      let address ← laneAddress (opcode - 0x58)
      popReversed [v128, address]
  | opcode =>
      match Access.vectorLoad? opcode, Lanes.ofOpcode? opcode,
          Operation.ofVectorOpcode? opcode with
      | some width, _, _ => load v128 width
      | none, some kind, _ => onLane opcode kind
      | none, none, some found => operation found
      | none, none, none => failure

end PluginSurface.Wasm.CodeCheck
