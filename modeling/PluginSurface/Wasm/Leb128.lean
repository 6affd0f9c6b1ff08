/-!
Whole numbers in groups of seven bits, the lowest group first. All bytes but the
last one of a number have their top bit set.
-/

namespace PluginSurface.Leb128

abbrev Bytes := List UInt8

/-! ## Writing -/

def encode (value : Nat) : Bytes :=
  if value < 128 then [UInt8.ofNat value]
  else UInt8.ofNat (value % 128 + 128) :: encode (value / 128)

/-! ## Reading -/

/-- Reads a number of at most so many bytes. -/
def unsigned? : Nat → Bytes → Option (Nat × Bytes)
  | 0, _ => none
  | _, [] => none
  | limit + 1, byte :: rest =>
      if byte.toNat < 128 then some (byte.toNat, rest)
      else
        (unsigned? limit rest).map fun (high, rest) =>
          (byte.toNat - 128 + 128 * high, rest)

/-- Reads a number of at most so many bytes. The bit before the top bit of the
last byte is its sign. -/
def signed? : Nat → Bytes → Option (Int × Bytes)
  | 0, _ => none
  | _, [] => none
  | limit + 1, byte :: rest =>
      if byte.toNat < 64 then some (byte.toNat, rest)
      else if byte.toNat < 128 then some (byte.toNat - 128, rest)
      else
        (signed? limit rest).map fun (high, rest) =>
          (byte.toNat - 128 + 128 * high, rest)

/-- One more than the greatest number of 32 bits. -/
def wordLimit : Nat := 4294967296

/-- Reads a number of 32 bits, which takes at most five bytes. -/
def word? (input : Bytes) : Option (Nat × Bytes) :=
  (unsigned? 5 input).filter fun (value, _) => value < wordLimit

/-- One more than the greatest number of 64 bits. -/
def longLimit : Nat := 18446744073709551616

/-- Reads a number of 64 bits, which takes at most ten bytes. -/
def long? (input : Bytes) : Option (Nat × Bytes) :=
  (unsigned? 10 input).filter fun (value, _) => value < longLimit

/-- Reading what was written gives the number, whatever follows. -/
theorem unsigned?_encode (value limit : Nat) (rest : Bytes)
    (enough : (encode value).length ≤ limit) :
    unsigned? limit (encode value ++ rest) = some (value, rest) := by
  induction value using encode.induct generalizing limit with
  | case1 value small =>
      rw [encode, if_pos small] at enough ⊢
      cases limit with
      | zero => simp at enough
      | succ limit =>
          have same : value % 256 = value := Nat.mod_eq_of_lt (by omega)
          simp [unsigned?, same, small]
  | case2 value large step =>
      rw [encode, if_neg large] at enough ⊢
      cases limit with
      | zero => simp at enough
      | succ limit =>
          have later := step limit (by simpa using enough)
          have same : (value % 128 + 128) % 256 = value % 128 + 128 :=
            Nat.mod_eq_of_lt (by omega)
          have whole : value % 128 + 128 * (value / 128) = value :=
            Nat.mod_add_div value 128
          have more : ¬value % 128 + 128 < 128 := by omega
          simp [unsigned?, same, more, later, whole]

end PluginSurface.Leb128
