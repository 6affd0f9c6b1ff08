import PluginSurface.Eval.Fault
import PluginSurface.Syntax.TypeExpr

/-!
Operators on values. Integer arithmetic wraps around at 64 bits; as soon as one
operand is a float, both are.
-/

namespace PluginSurface.Value

/-- Two numbers of one kind. -/
inductive Operands where
  | ints (left right : Int64)
  | floats (left right : Float)

def floatOfInt (value : Int64) : Float :=
  Binary64.ofInt value.toInt

def operands? : Value → Value → Option Operands
  | int left, int right => some (.ints left right)
  | int left, float right => some (.floats (floatOfInt left) right)
  | float left, int right => some (.floats left (floatOfInt right))
  | float left, float right => some (.floats left right)
  | _, _ => none

/-- The bits of an integer or a truth value. -/
def bits? : Value → Option Int64
  | int value => some value
  | bool value => some (if value then 1 else 0)
  | _ => none

def compareOperands : Operands → Option Ordering
  | .ints left right => some (compare left.toInt right.toInt)
  | .floats left right =>
      if left < right then some .lt
      else if right < left then some .gt
      else if left == right then some .eq
      else none

/-- Whether an ordering answers a comparison with yes. -/
def orderingHolds : BinaryOperator → Ordering → Bool
  | .less, ordering => ordering == .lt
  | .greater, ordering => ordering == .gt
  | .lessEqual, ordering => ordering != .gt
  | _, ordering => ordering != .lt

/-- An operation on the bits of two integers. Shifts take their distance modulo
64. -/
def bitwise (operator : BinaryOperator) (left right : Int64) : Int64 :=
  let leftBits := left.toUInt64
  let rightBits := right.toUInt64
  let distance := rightBits &&& 63
  match operator with
  | .bitAnd => (leftBits &&& rightBits).toInt64
  | .bitOr => (leftBits ||| rightBits).toInt64
  | .bitXor => (leftBits ^^^ rightBits).toInt64
  | .shiftLeft => (leftBits <<< distance).toInt64
  | .shiftRight => left >>> distance.toInt64
  | _ => (leftBits >>> distance).toInt64

def compareStrings (left right : String) : Ordering :=
  if left < right then .lt else if left = right then .eq else .gt

def binary (operator : BinaryOperator) (left right : Value) :
    Except Fault Value :=
  let mismatch : Except Fault Value :=
    .error (.misuse (.binaryOperands operator left.typeName right.typeName))
  let arithmetic (onInts : Int64 → Int64 → Except Fault Value)
      (onFloats : Float → Float → Float) : Except Fault Value :=
    match operands? left right with
    | some (.ints left right) => onInts left right
    | some (.floats left right) => .ok (.float (onFloats left right))
    | none => mismatch
  match operator with
  | .equal | .strictEqual => .ok (.bool (looselyEqual left right))
  | .notEqual | .strictNotEqual => .ok (.bool (!looselyEqual left right))
  | .and => .ok (if left.isTruthy then right else left)
  | .or => .ok (if left.isTruthy then left else right)
  | .add =>
      match left, right with
      | .string left, right => .ok (.string (left ++ right.text))
      | left, .string right => .ok (.string (left.text ++ right))
      | _, _ =>
          arithmetic (fun left right => .ok (.int (left + right)))
            (fun left right => left + right)
  | .subtract =>
      arithmetic (fun left right => .ok (.int (left - right)))
        (fun left right => left - right)
  | .multiply =>
      arithmetic (fun left right => .ok (.int (left * right)))
        (fun left right => left * right)
  | .divide =>
      arithmetic
        (fun left right =>
          if right = 0 then .error .divisionByZero
          else .ok (.int (left / right)))
        (fun left right => left / right)
  | .remainder =>
      arithmetic
        (fun left right =>
          if right = 0 then .error .divisionByZero
          else .ok (.int (left % right)))
        Binary64.remainder
  | .less | .greater | .lessEqual | .greaterEqual =>
      let answer (ordering : Option Ordering) : Except Fault Value :=
        match ordering with
        | some ordering => .ok (.bool (orderingHolds operator ordering))
        | none => .ok (.bool false)
      match left, right with
      | .string left, .string right => answer (some (compareStrings left right))
      | _, _ =>
          match operands? left right with
          | some operands => answer (compareOperands operands)
          | none => mismatch
  | .bitAnd | .bitOr | .bitXor | .shiftLeft | .shiftRight
  | .shiftRightUnsigned =>
      match bits? left, bits? right with
      | some left, some right => .ok (.int (bitwise operator left right))
      | _, _ => mismatch

def unary (operator : UnaryOperator) (operand : Value) : Except Fault Value :=
  match operator, operand with
  | .not, operand => .ok (.bool (!operand.isTruthy))
  | .negate, .int value => .ok (.int (-value))
  | .negate, .float value => .ok (.float (-value))
  | .plus, .int value => .ok (.int value)
  | .plus, .float value => .ok (.float value)
  | .bitNot, .int value => .ok (.int (~~~value))
  | operator, operand =>
      .error (.misuse (.unaryOperand operator operand.typeName))

/-! ## Types -/

/-- The integer that a value is cut down to by a cast to an integer type. -/
def castInteger? : Value → Option Int64
  | int value => some value
  | float value => some (Int64.ofInt (Binary64.truncate value))
  | bool value => some (if value then 1 else 0)
  | _ => none

/-- Keeps the low bits of an integer, as a number without sign. -/
def keepUnsigned (width : Nat) (value : Int64) : Int64 :=
  Int64.ofInt (value.toInt % Binary64.powerOfTwo width)

/-- Keeps the low bits of an integer, as a number with sign. -/
def keepSigned (width : Nat) (value : Int64) : Int64 :=
  Int64.ofInt (Int.bmod value.toInt (Binary64.powerOfTwo width))

/-- A cast to a type with a simple name. Types without a rule of their own
leave a value as it is. -/
def castTo (type : String) (value : Value) : Value :=
  let toInteger (keep : Int64 → Int64) : Value :=
    match value.castInteger? with
    | some bits => .int (keep bits)
    | none => value
  match type with
  | "i8" => toInteger (keepSigned 8)
  | "u8" => toInteger (keepUnsigned 8)
  | "i16" => toInteger (keepSigned 16)
  | "u16" => toInteger (keepUnsigned 16)
  | "i32" | "isize" => toInteger (keepSigned 32)
  | "u32" | "usize" => toInteger (keepUnsigned 32)
  | "i64" | "u64" => toInteger id
  | "f32" | "f64" =>
      match value with
      | .int value => .float (floatOfInt value)
      | value => value
  | "bool" => .bool value.isTruthy
  | _ => value

/-- A cast. Only simple names change a value. -/
def cast (value : Value) : TypeExpr → Value
  | .named [name] [] _ => value.castTo name.text
  | _ => value

/-- What a field of a type holds before anything is assigned to it. -/
def zeroOf (type : TypeExpr) : Value :=
  match type.baseName? with
  | some "i8" | some "u8" | some "i16" | some "u16" | some "i32" | some "u32"
  | some "i64" | some "u64" | some "isize" | some "usize" => .int 0
  | some "f32" | some "f64" => .float 0.0
  | some "bool" => .bool false
  | _ => .null

end PluginSurface.Value
