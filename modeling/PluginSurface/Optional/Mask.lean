/-!
The mask of supplied arguments: a host passes one 64-bit number in which bit
`i` tells whether argument `i` was supplied.
-/

namespace PluginSurface

def maskParameter : String :=
  "__SUPPLIED_PARAMS"

def maskType : String :=
  "u64"

/-- How many parameters of its own a function with a mask may have. -/
def parameterLimit : Nat :=
  63

namespace Mask

def width : Nat :=
  64

/-- An argument beyond the width of a mask. -/
structure OutOfRange where
  index : Nat
deriving DecidableEq

def OutOfRange.message (error : OutOfRange) : String :=
  "argument index " ++ toString error.index ++
    " does not fit in a 64-bit mask"

/-- The mask of a list of flags, the first flag being bit zero. -/
def bits : List Bool → Nat
  | [] => 0
  | flag :: rest => (if flag then 1 else 0) + 2 * bits rest

/-- The mask a host passes for a list of supplied flags. -/
def ofSupplied (supplied : List Bool) : Except OutOfRange UInt64 :=
  if width < supplied.length then .error ⟨supplied.length - 1⟩
  else .ok (UInt64.ofNat (bits supplied))

/-- Whether a mask marks an argument as supplied. -/
def isSupplied (mask : UInt64) (index : Nat) : Except OutOfRange Bool :=
  if width ≤ index then .error ⟨index⟩
  else .ok (mask.toNat.testBit index)

end Mask

end PluginSurface
