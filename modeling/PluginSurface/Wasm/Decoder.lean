import PluginSurface.Wasm.Module

/-!
Decoding the content of sections. A decoder takes bytes from the front of its
input, or fails.
-/

namespace PluginSurface.Wasm

open Leb128 (Bytes)

abbrev Decoder := StateT Bytes Option

namespace Decoder

/-- Runs a decoder that has to take the whole input. -/
def runAll {Value : Type} (decoder : Decoder Value) (input : Bytes) :
    Option Value :=
  match decoder.run input with
  | some (value, []) => some value
  | _ => none

def byte : Decoder UInt8 := fun input =>
  match input with
  | [] => none
  | byte :: rest => some (byte, rest)

/-- The byte that comes next, which is not taken. -/
def peek : Decoder UInt8 := fun input =>
  input.head?.map fun byte => (byte, input)

def expect (wanted : UInt8) : Decoder Unit := do
  guard ((← byte) = wanted)

def bytes (count : Nat) : Decoder Bytes := take? count

def word : Decoder Nat := Leb128.word?

def long : Decoder Nat := Leb128.long?

/-- A signed number of at most so many bits. -/
def signed (bits : Nat) : Decoder Int := do
  let limit : Int := Nat.shiftLeft 1 (bits - 1)
  let value ← Leb128.signed? ((bits + 6) / 7)
  guard (-limit ≤ value ∧ value < limit)
  return value

def name : Decoder String := name?

def times {Item : Type} (item : Decoder Item) : Nat → Decoder (List Item)
  | 0 => return []
  | count + 1 => do
      let first ← item
      return first :: (← times item count)

def vector {Item : Type} (item : Decoder Item) : Decoder (List Item) := do
  times item (← word)

/-- Items behind their number, which may not exceed a limit. -/
def vectorUpTo {Item : Type} (limit : Nat) (item : Decoder Item) :
    Decoder (List Item) := do
  let count ← word
  guard (count ≤ limit)
  times item count

end Decoder

end PluginSurface.Wasm
