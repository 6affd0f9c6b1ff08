import PluginSurface.Wasm.Context
import PluginSurface.Wasm.Operation

/-!
The operands and blocks of code that is being checked. Every instruction finds the
operands it needs, and blocks end with the values they promise.
-/

namespace PluginSurface.Wasm

/-! ## Operands -/

/-- What is known of an operand. Code that is never reached has operands of which
less is known than their type. -/
inductive Operand where
  | unknown
  /-- A reference, which may be known to lie below a heap type. -/
  | someReference (bound : Option AbstractHeap)
  | known (type : ValueType)
deriving DecidableEq, Inhabited

/-- Whether an operand may stand where a type is wanted. -/
def Operand.fits (types : TypeTable) (wanted : ValueType) : Operand → Bool
  | unknown => true
  | someReference none => wanted.isReference
  | someReference (some heap) =>
      types.isSubtype (.reference ⟨false, .common heap⟩) wanted
  | known type => types.isSubtype type wanted

/-! ## Blocks -/

inductive BlockKind where
  | block
  | loop
  | whenTrue
  | whenFalse
deriving DecidableEq, Inhabited

/-- A block that has been entered. -/
structure Frame where
  kind : BlockKind
  type : FunctionType
  /-- The number of operands that are not the block's own. -/
  height : Nat
  /-- Whether what comes next is never reached. -/
  isUnreachable : Bool
  /-- The locals that had got their first values before. -/
  assigned : List Nat
deriving Inhabited

/-- The operands that a branch to a block takes along. -/
def Frame.branchTypes (frame : Frame) : List ValueType :=
  if frame.kind = .loop then frame.type.params else frame.type.results

/-- A local variable, and whether it has a value from the start. -/
structure Local where
  type : ValueType
  isSet : Bool
deriving DecidableEq, Inhabited

/-- What code may refer to. -/
structure Scope where
  context : Context
  locals : List Local
  /-- What the function returns. -/
  results : List ValueType
  /-- Whether the code is a constant expression. -/
  isConstant : Bool
deriving Inhabited

/-- Where the check of code stands: its operands, the last one first, and the
blocks around. -/
structure CodeState where
  operands : List Operand
  frames : List Frame
  /-- The locals that have got their first values. -/
  assigned : List Nat
  /-- The functions that references were made to. -/
  referenced : List Nat
deriving Inhabited

abbrev CodeCheck := ReaderT Scope (StateT CodeState Decoder)

namespace CodeCheck

/-! ## Parts of instructions -/

def word : CodeCheck Nat :=
  (Decoder.word : Decoder Nat)

/-- Takes an index of one of several things and finds the thing. -/
def indexed {Item : Type} (items : Context → List Item) : CodeCheck Item := do
  match (items (← read).context)[← word]? with
  | some item => return item
  | none => failure

def names : CodeCheck TypeNames :=
  return (← read).context.names

def heapType : CodeCheck HeapType := do
  (HeapType.decode (← names) : Decoder HeapType)

/-! ## Operands -/

def isSubtype (lower upper : ValueType) : CodeCheck Bool :=
  return (← read).context.types.isSubtype lower upper

def pushOperand (operand : Operand) : CodeCheck Unit :=
  modify fun state => { state with operands := operand :: state.operands }

def push (type : ValueType) : CodeCheck Unit :=
  pushOperand (.known type)

def pushAll : List ValueType → CodeCheck Unit
  | [] => return
  | type :: rest => do
      push type
      pushAll rest

def pushReference (type : RefType) : CodeCheck Unit :=
  push (.reference type)

/-- Takes an operand. Where nothing is reached there is always one more. -/
def popAny : CodeCheck Operand := do
  let state ← get
  match state.frames with
  | [] => failure
  | frame :: _ =>
      if state.operands.length = frame.height then
        guard frame.isUnreachable
        return .unknown
      else
        match state.operands with
        | [] => failure
        | operand :: operands =>
            set { state with operands }
            return operand

/-- Takes an operand that may stand where a type is wanted. -/
def popFitting (wanted : ValueType) : CodeCheck Operand := do
  let operand ← popAny
  guard (operand.fits (← read).context.types wanted)
  return operand

def pop (wanted : ValueType) : CodeCheck Unit := do
  let _ ← popFitting wanted

def popReversed : List ValueType → CodeCheck Unit
  | [] => return
  | type :: rest => do
      pop type
      popReversed rest

def popAll (types : List ValueType) : CodeCheck Unit :=
  popReversed types.reverse

/-- Takes operands and gives values of the wanted types in their place. -/
def retype (types : List ValueType) : CodeCheck Unit := do
  popAll types
  pushAll types

def popReference : CodeCheck Operand := do
  match ← popAny with
  | .unknown => return .someReference none
  | .someReference bound => return .someReference bound
  | .known type =>
      guard type.isReference
      return .known type

/-- Takes a reference, which may be null, to what has a heap type. -/
def popNullable (heap : HeapType) : CodeCheck Unit :=
  pop (.reference ⟨true, heap⟩)

/-- Takes a reference to what has a common heap type and tells what is known of
it. -/
def popBelow (heap : AbstractHeap) : CodeCheck Operand := do
  match ← popFitting (.reference ⟨true, .common heap⟩) with
  | .unknown => return .someReference none
  | operand => return operand

/-- Leaves nothing to be reached before the end of the block. -/
def leave : CodeCheck Unit := do
  let state ← get
  match state.frames with
  | [] => failure
  | frame :: frames =>
      let own := state.operands.length - frame.height
      set { state with
        operands := state.operands.drop own
        frames := { frame with isUnreachable := true } :: frames }

/-! ## Blocks -/

/-- Begins a block that has its operands already. -/
def openBlock (kind : BlockKind) (type : FunctionType) : CodeCheck Unit := do
  modify fun state =>
    { state with
      frames :=
        ⟨kind, type, state.operands.length, false, state.assigned⟩ ::
          state.frames }
  pushAll type.params

def enter (kind : BlockKind) (type : FunctionType) : CodeCheck Unit := do
  popAll type.params
  openBlock kind type

/-- Ends the innermost block, which has to have its results and nothing else.
What locals were set in it is forgotten. -/
def exit : CodeCheck Frame := do
  match (← get).frames with
  | [] => failure
  | frame :: frames =>
      popAll frame.type.results
      let state ← get
      guard (state.operands.length = frame.height)
      set { state with frames, assigned := frame.assigned }
      return frame

def branchTypes (depth : Nat) : CodeCheck (List ValueType) := do
  match (← get).frames[depth]? with
  | some frame => return frame.branchTypes
  | none => failure

/-- Takes the type of functions by its position. -/
def functionType : CodeCheck FunctionType := do
  match (← read).context.functionTypeAt? (← word) with
  | some type => return type
  | none => failure

/-- Takes the type of a block: nothing, a result, or the position of a type. -/
def blockType : CodeCheck FunctionType := do
  let first ← (Decoder.peek : Decoder UInt8)
  if first = 0x40 then
    let _ ← (Decoder.byte : Decoder UInt8)
    return ⟨[], []⟩
  else if 0x40 < first ∧ first < 0x80 then
    let type ← (ValueType.decode (← names) : Decoder ValueType)
    return ⟨[], [type]⟩
  else
    let position ← (Decoder.signed 33 : Decoder Int)
    guard (0 ≤ position)
    match (← read).context.functionTypeAt? position.toNat with
    | some type => return type
    | none => failure

def operation (operation : Operation) : CodeCheck Unit := do
  popReversed operation.operands
  push operation.result

end CodeCheck

end PluginSurface.Wasm
