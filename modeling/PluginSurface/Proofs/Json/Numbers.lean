import Mathlib.Data.List.TakeWhile
import PluginSurface.Json.Document
import PluginSurface.Json.Text
import PluginSurface.Proofs.Source.Utf8

/-!
# Numbers are read as they were written

What stands behind a number ends it, so a number is read in a longer text as it
is on its own. Whole numbers of 64 bits are read back; of a double that is
assumed, as digits are cut off in reading one.
-/

namespace PluginSurface

open Utf8 (encode)

namespace Document

/-! ## What ends a number -/

/-- Whether a number ends before a text: no digit, point or exponent mark
stands at its front. -/
def EndsNumber (rest : Bytes) : Prop :=
  ∀ byte ∈ rest.head?,
    isDigit byte = false ∧ byte ≠ 0x2e ∧ byte ≠ 0x65 ∧ byte ≠ 0x45

section

variable {rest : Bytes} (ends : EndsNumber rest)

include ends

theorem EndsNumber.takeWhile_eq : rest.takeWhile isDigit = [] := by
  rcases rest with _ | ⟨byte, rest⟩
  · rfl
  · rw [List.takeWhile_cons, (ends byte rfl).1]
    rfl

theorem EndsNumber.dropWhile_eq : rest.dropWhile isDigit = rest := by
  rcases rest with _ | ⟨byte, rest⟩
  · rfl
  · rw [List.dropWhile_cons, (ends byte rfl).1]
    rfl

theorem digits?_append {input digits left : Bytes}
    (read : digits? input = some (digits, left)) :
    digits? (input ++ rest) = some (digits, left ++ rest) := by
  have taken : (input ++ rest).takeWhile isDigit = input.takeWhile isDigit := by
    rw [List.takeWhile_append, ends.takeWhile_eq, List.append_nil]
    split
    · rename_i whole
      exact ((List.takeWhile_prefix _).eq_of_length whole).symm
    · rfl
  have dropped : (input ++ rest).dropWhile isDigit =
      input.dropWhile isDigit ++ rest := by
    rw [List.dropWhile_append, ends.dropWhile_eq]
    split
    · rename_i nothing
      rw [List.isEmpty_iff.mp nothing, List.nil_append]
    · rfl
  simp only [digits?, taken, dropped] at read ⊢
  split at read
  · cases read
  · rename_i nonempty
    cases read
    rw [if_neg nonempty]

theorem whole?_append {input digits left : Bytes}
    (read : whole? input = some (digits, left)) :
    whole? (input ++ rest) = some (digits, left ++ rest) := by
  obtain ⟨digitsRead, alone⟩ := Option.filter_eq_some_iff.mp read
  rw [whole?, digits?_append ends digitsRead, Option.filter_some]
  exact if_pos alone

theorem fraction?_append {input digits left : Bytes}
    (read : fraction? input = some (digits, left)) :
    fraction? (input ++ rest) = some (digits, left ++ rest) := by
  rcases input with _ | ⟨byte, input⟩
  · cases read
    rw [List.nil_append, fraction?]
    rintro tail rfl
    exact (ends 0x2e rfl).2.1 rfl
  · by_cases point : byte = 0x2e
    · subst point
      exact digits?_append ends read
    · rw [fraction?] at read
      · cases read
        rw [List.cons_append, fraction?]
        simp [point]
      · simp [point]

omit ends in
theorem sign_append {input : Bytes} (nonempty : input ≠ []) :
    sign (input ++ rest) = ((sign input).1, (sign input).2 ++ rest) := by
  rcases input with _ | ⟨byte, input⟩
  · exact absurd rfl nonempty
  · by_cases minus : byte = 0x2d
    · subst minus
      rfl
    · rw [List.cons_append, sign, sign] <;> simp [minus]

omit ends in
theorem powerSign_append {input : Bytes} (nonempty : input ≠ []) :
    powerSign (input ++ rest) =
      ((powerSign input).1, (powerSign input).2 ++ rest) := by
  rcases input with _ | ⟨byte, input⟩
  · exact absurd rfl nonempty
  · by_cases plus : byte = 0x2b
    · subst plus
      rfl
    · rw [List.cons_append, powerSign, powerSign, ← List.cons_append]
      · exact sign_append nonempty
      all_goals simp [plus]

omit ends in
theorem ne_nil_of_digits? {input : Bytes} {read : Bytes × Bytes}
    (found : digits? input = some read) : input ≠ [] := by
  rintro rfl
  cases found

theorem power?_append {input left : Bytes} {power : Option (Bool × Bytes)}
    (read : power? input = some (power, left)) :
    power? (input ++ rest) = some (power, left ++ rest) := by
  rcases input with _ | ⟨byte, input⟩
  · cases read
    rcases rest with _ | ⟨byte, rest⟩
    · rfl
    · obtain ⟨-, -, lower, upper⟩ := ends byte rfl
      simp [power?, lower, upper]
  · by_cases mark : (byte == 0x65 || byte == 0x45) = true
    · simp only [power?, mark, if_true, Option.bind_eq_bind,
        Option.bind_eq_some_iff, Option.some.injEq, Prod.mk.injEq] at read
      obtain ⟨⟨digits, _⟩, digitsRead, rfl, rfl⟩ := read
      have nonempty : input ≠ [] := by
        rintro rfl
        exact ne_nil_of_digits? digitsRead rfl
      rw [List.cons_append, power?, if_pos mark, powerSign_append nonempty]
      simp only [digits?_append ends digitsRead, Option.bind_eq_bind,
        Option.bind_some]
    · rw [power?, if_neg mark] at read
      cases read
      rw [List.cons_append, power?, if_neg mark]

/-- What follows a number does not matter for reading it. -/
theorem numberParts?_append {input left : Bytes} {parts : NumberParts}
    (read : numberParts? input = some (parts, left)) :
    numberParts? (input ++ rest) = some (parts, left ++ rest) := by
  simp only [numberParts?, Option.bind_eq_bind, Option.bind_eq_some_iff,
    Option.some.injEq, Prod.mk.injEq] at read
  obtain ⟨⟨_, _⟩, wholeRead, ⟨_, _⟩, fractionRead, ⟨_, _⟩, powerRead, rfl, rfl⟩ :=
    read
  have nonempty : input ≠ [] := by
    rintro rfl
    cases wholeRead
  simp only [numberParts?, sign_append nonempty,
    whole?_append ends wholeRead, fraction?_append ends fractionRead,
    power?_append ends powerRead, Option.bind_eq_bind, Option.bind_some]

end

/-! ## Whole numbers -/

/-- The bytes of a whole number in decimal notation. -/
def decimal (value : Nat) : Bytes :=
  (Nat.toDigits 10 value).map fun char => UInt8.ofNat char.toNat

theorem encode_toDigits (value : Nat) :
    encode (Nat.toDigits 10 value) = decimal value := by
  have digits := fun char member =>
    Nat.isDigit_of_mem_toDigits (b := 10) (n := value) (c := char)
      (by decide) (by decide) member
  unfold decimal
  generalize Nat.toDigits 10 value = chars at digits ⊢
  induction chars with
  | nil => rfl
  | cons char chars inductionHypothesis =>
      have digit := digits char List.mem_cons_self
      have small : char.toNat < 128 := by
        simp only [Char.isDigit, Bool.and_eq_true, decide_eq_true_eq] at digit
        exact Nat.lt_of_le_of_lt (UInt32.le_iff_toNat_le.mp digit.2) (by decide)
      rw [Utf8.encode_cons, Utf8.utf8EncodeChar_of_small small,
        inductionHypothesis fun char member =>
          digits char (List.mem_cons_of_mem _ member)]
      rfl

theorem toNat_of_isDigit {char : Char} (digit : char.isDigit = true) :
    48 ≤ char.toNat ∧ char.toNat ≤ 57 ∧
      (UInt8.ofNat char.toNat).toNat = char.toNat := by
  simp only [Char.isDigit, Bool.and_eq_true, decide_eq_true_eq, ge_iff_le,
    UInt32.le_iff_toNat_le] at digit
  have low : 48 ≤ char.toNat := digit.1
  have high : char.toNat ≤ 57 := digit.2
  refine ⟨low, high, ?_⟩
  rw [UInt8.toNat_ofNat']
  omega

theorem isDigit_of_isDigit {char : Char} (digit : char.isDigit = true) :
    isDigit (UInt8.ofNat char.toNat) = true ∧
      digitValue (UInt8.ofNat char.toNat) = char.toNat - '0'.toNat := by
  obtain ⟨low, high, value⟩ := toNat_of_isDigit digit
  refine ⟨?_, by rw [digitValue, value]; rfl⟩
  simp only [isDigit, Bool.and_eq_true, decide_eq_true_eq,
    UInt8.le_iff_toNat_le, value]
  exact ⟨low, high⟩

theorem isDigit_of_mem_decimal {value : Nat} {byte : UInt8}
    (member : byte ∈ decimal value) : isDigit byte = true := by
  obtain ⟨char, digit, rfl⟩ := List.mem_map.mp member
  exact (isDigit_of_isDigit (Nat.isDigit_of_mem_toDigits (by decide) (by decide)
    digit)).1

/-- The number that digits denote behind those of another one. -/
def denoted (value : Nat) (digits : Bytes) : Nat :=
  digits.foldl (fun value digit => value * 10 + digitValue digit) value

theorem le_denoted (value : Nat) (digits : Bytes) :
    value ≤ denoted value digits := by
  induction digits generalizing value with
  | nil => exact Nat.le_refl value
  | cons digit digits inductionHypothesis =>
      have later : value * 10 + digitValue digit ≤ denoted value
          (digit :: digits) := inductionHypothesis _
      omega

theorem collectDigits_of_lt {digits : Bytes} {value : Nat}
    (small : denoted value digits < significandLimit) :
    collectDigits value digits = (denoted value digits, 0) := by
  induction digits generalizing value with
  | nil => rfl
  | cons digit digits inductionHypothesis =>
      have next : value * 10 + digitValue digit < significandLimit :=
        Nat.lt_of_le_of_lt (le_denoted _ digits) small
      rw [collectDigits, if_pos next, inductionHypothesis small]
      rfl

theorem denoted_decimal (value : Nat) : denoted 0 (decimal value) = value := by
  rw [denoted, decimal, List.foldl_map]
  refine Eq.trans ?_ (Nat.ofDigitChars_ten_toDigits (n := value))
  rw [Nat.ofDigitChars_eq_foldl]
  refine List.foldl_ext _ _ _ fun left char member => ?_
  have digit := Nat.isDigit_of_mem_toDigits (by decide) (by decide) member
  rw [(isDigit_of_isDigit digit).2, Nat.mul_comm]

theorem collectDigits_decimal {value : Nat} (small : value < significandLimit) :
    collectDigits 0 (decimal value) = (value, 0) := by
  rw [collectDigits_of_lt (by rwa [denoted_decimal]), denoted_decimal]

theorem head_toDigits {value : Nat} (positive : value ≠ 0) :
    (Nat.toDigits 10 value).head? ≠ some '0' := by
  have leading : ∀ digit < 10, digit ≠ 0 → Nat.digitChar digit ≠ '0' := by
    decide
  induction value using Nat.strongRecOn with
  | _ value inductionHypothesis =>
      rw [Nat.toDigits_eq_if (by decide)]
      split
      · rename_i small
        simpa using leading value small positive
      · rw [List.head?_append_of_ne_nil _ Nat.toDigits_ne_nil]
        exact inductionHypothesis _ (by omega) (by omega)

theorem head_decimal {value : Nat} (positive : value ≠ 0) :
    (decimal value).head? ≠ some 0x30 := by
  intro zero
  rw [decimal, List.head?_map, Option.map_eq_some_iff] at zero
  obtain ⟨char, first, same⟩ := zero
  have digit : char.isDigit = true :=
    Nat.isDigit_of_mem_toDigits (by decide) (by decide)
      (List.mem_of_head? first)
  obtain ⟨-, -, code⟩ := toNat_of_isDigit digit
  have isZero : char = '0' := by
    rw [← Char.ofNat_toNat char, ← code, same]
    rfl
  exact head_toDigits positive (isZero ▸ first)

theorem whole?_decimal (value : Nat) :
    whole? (decimal value) = some (decimal value, []) := by
  have digits : ∀ byte ∈ decimal value, isDigit byte = true :=
    fun _ => isDigit_of_mem_decimal
  have taken : (decimal value).takeWhile isDigit = decimal value :=
    List.takeWhile_eq_self_iff.mpr digits
  have dropped : (decimal value).dropWhile isDigit = [] :=
    List.dropWhile_eq_nil_iff.mpr digits
  have nonempty : ¬ (decimal value).isEmpty = true := by
    simp [decimal, Nat.toDigits_ne_nil]
  have alone : ((decimal value).head? != some 0x30 ||
      (decimal value).length == 1) = true := by
    by_cases zero : value = 0
    · subst zero
      decide
    · simp [head_decimal zero]
  rw [whole?, digits?, taken, dropped, if_neg nonempty, Option.filter_some]
  exact if_pos alone

theorem numberParts?_of_sign {input : Bytes} {negative : Bool} {value : Nat}
    (signed : sign input = (negative, decimal value)) :
    numberParts? input = some (⟨negative, decimal value, [], none⟩, []) := by
  rw [numberParts?, signed]
  simp only [whole?_decimal, Option.bind_eq_bind, Option.bind_some]
  rfl

theorem sign_decimal (value : Nat) :
    sign (decimal value) = (false, decimal value) := by
  rw [sign]
  intro rest starts
  have digit : isDigit 0x2d = true :=
    isDigit_of_mem_decimal (starts ▸ List.mem_cons_self)
  exact absurd digit (by decide)

theorem numberOfParts?_nonnegative {value : Nat}
    (small : value < significandLimit) :
    numberOfParts? ⟨false, decimal value, [], none⟩ = some (.whole value) := by
  simp [numberOfParts?, collectDigits_decimal small]

theorem numberOfParts?_negative {value : Nat} (positive : value ≠ 0)
    (small : value ≤ 9223372036854775808) :
    numberOfParts? ⟨true, decimal value, [], none⟩ =
      some (.whole (-value)) := by
  have fits : value < significandLimit :=
    Nat.lt_of_le_of_lt small (by decide)
  have notBeyond : ¬ 9223372036854775808 < value := Nat.not_lt_of_le small
  simp [numberOfParts?, collectDigits_decimal fits, positive, notBeyond]

theorem encode_numberText_natural (value : Nat) :
    encode (Json.numberText (.whole value)).toList = decimal value := by
  have text : Json.numberText (.whole value) = toString value := rfl
  rw [text, Nat.toString_eq_ofList_toDigits, String.toList_ofList,
    encode_toDigits]

theorem encode_numberText_negative (value : Nat) :
    encode (Json.numberText (.whole (-(value + 1)))).toList =
      0x2d :: decimal (value + 1) := by
  have text : Json.numberText (.whole (-(value + 1))) =
      "-" ++ toString (value + 1) := rfl
  rw [text, Nat.toString_eq_ofList_toDigits, String.toList_append,
    String.toList_ofList, String.toList_ofList, Utf8.encode_append,
    encode_toDigits]
  rfl

/-- A whole number of 64 bits, with or without a sign, is read as it was
written. -/
theorem numberParts?_whole {value : Int}
    (least : -9223372036854775808 ≤ value)
    (greatest : value < 18446744073709551616) :
    ∃ parts,
      numberParts? (encode (Json.numberText (.whole value)).toList) =
          some (parts, []) ∧
        numberOfParts? parts = some (.whole value) := by
  rcases value with value | value
  · refine ⟨_, numberParts?_of_sign ?_, numberOfParts?_nonnegative ?_⟩
    · rw [Int.ofNat_eq_natCast, encode_numberText_natural, sign_decimal]
    · have small : (value : Int) < 18446744073709551616 := greatest
      unfold significandLimit
      omega
  · have opposite : Int.negSucc value = -((value + 1 : Nat) : Int) := rfl
    rw [opposite] at least ⊢
    refine ⟨_, numberParts?_of_sign ?_, numberOfParts?_negative ?_ ?_⟩
    · exact congrArg sign (encode_numberText_negative value)
    · omega
    · omega

end Document

end PluginSurface
