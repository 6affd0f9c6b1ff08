/-!
Operators of expressions and how tightly they bind.
-/

namespace PluginSurface

/-- Operators between two operands. -/
inductive BinaryOperator where
  | or | and
  | bitOr | bitXor | bitAnd
  | equal | notEqual | strictEqual | strictNotEqual
  | less | greater | lessEqual | greaterEqual
  | shiftLeft | shiftRight | shiftRightUnsigned
  | add | subtract
  | multiply | divide | remainder
deriving DecidableEq, Inhabited

namespace BinaryOperator

def text : BinaryOperator → String
  | or => "||"
  | and => "&&"
  | bitOr => "|"
  | bitXor => "^"
  | bitAnd => "&"
  | equal => "=="
  | notEqual => "!="
  | strictEqual => "==="
  | strictNotEqual => "!=="
  | less => "<"
  | greater => ">"
  | lessEqual => "<="
  | greaterEqual => ">="
  | shiftLeft => "<<"
  | shiftRight => ">>"
  | shiftRightUnsigned => ">>>"
  | add => "+"
  | subtract => "-"
  | multiply => "*"
  | divide => "/"
  | remainder => "%"

/-- Operators with a greater precedence bind more tightly. -/
def precedence : BinaryOperator → Nat
  | or => 1
  | and => 2
  | bitOr => 3
  | bitXor => 4
  | bitAnd => 5
  | equal | notEqual | strictEqual | strictNotEqual => 6
  | less | greater | lessEqual | greaterEqual => 7
  | shiftLeft | shiftRight | shiftRightUnsigned => 8
  | add | subtract => 9
  | multiply | divide | remainder => 10

end BinaryOperator

/-- Operators before one operand. -/
inductive UnaryOperator where
  | negate | plus | not | bitNot
deriving DecidableEq, Inhabited

def UnaryOperator.text : UnaryOperator → String
  | negate => "-"
  | plus => "+"
  | not => "!"
  | bitNot => "~"

end PluginSurface
