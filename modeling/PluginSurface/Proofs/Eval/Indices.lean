import Mathlib.Algebra.Group.Nat.Defs
import PluginSurface.Proofs.Eval.Places

/-!
# Lengths and indices

Arrays and texts are indexed by their elements and characters, but the length of
a text counts UTF-16 units. A character beyond the first 65536 has two of them,
so the indices below the length are those of the elements exactly if there is no
such character. If there are some, as many indices at the end lead to nothing.
-/

namespace PluginSurface.Value

/-! ## Units -/

/-- Whether a character has two UTF-16 units. -/
def isWide (char : Char) : Bool :=
  0x10000 ≤ char.toNat

/-- A text has a unit for each character and another one for each wide one. -/
theorem unitCount_eq (text : String) :
    unitCount text = text.toList.length + text.toList.countP isWide := by
  suffices counted : ∀ (chars : List Char) (count : Nat),
      chars.foldl
          (fun count char => count + if char.toNat < 0x10000 then 1 else 2)
          count =
        count + (chars.length + chars.countP isWide) by
    rw [unitCount, counted, Nat.zero_add]
  intro chars
  induction chars with
  | nil => exact fun _ => rfl
  | cons char rest inductionHypothesis =>
      intro count
      rw [List.foldl_cons, inductionHypothesis, List.length_cons,
        List.countP_cons]
      by_cases narrow : char.toNat < 0x10000
      · have notWide : isWide char = false := by simp [isWide, narrow]
        simp only [narrow, if_true, notWide, Bool.false_eq_true, if_false]
        omega
      · have wide : isWide char = true := by simpa [isWide] using narrow
        simp only [narrow, if_false, wide, if_true]
        omega

/-! ## Parts -/

/-- The elements of an array or the characters of a text. Other values cannot be
indexed. -/
def parts? : Value → Option (List Value)
  | array items => some items
  | string text =>
      some (text.toList.map fun char => string (String.singleton char))
  | _ => none

/-- The number of characters that the length of a value counts twice. -/
def wideCount : Value → Nat
  | string text => text.toList.countP isWide
  | _ => 0

section

variable {value part : Value} {parts : List Value}

theorem member_length (indexed : value.parts? = some parts) :
    value.member "length" =
      .ok (.int (Int64.ofNat (parts.length + value.wideCount))) := by
  cases value with
  | array items =>
      cases indexed
      rfl
  | string text =>
      cases indexed
      rw [List.length_map, wideCount, ← unitCount_eq]
      rfl
  | _ => cases indexed

theorem element_eq (indexed : value.parts? = some parts) (index : Int64) :
    value.element index =
      match itemAt? parts index with
      | some part => .ok part
      | none => .error (.indexOutOfBounds index.toInt parts.length) := by
  cases value with
  | array items =>
      cases indexed
      rfl
  | string text =>
      cases indexed
      have mapped : itemAt? (text.toList.map fun char =>
          string (String.singleton char)) index =
            (itemAt? text.toList index).map fun char =>
              string (String.singleton char) := by
        unfold itemAt?
        split
        · rfl
        · exact List.getElem?_map
      rw [mapped, List.length_map, element]
      cases itemAt? text.toList index <;> rfl
  | _ => cases indexed

/-- An index leads to the part at its position, and to nothing else. -/
theorem element_eq_ok_iff (indexed : value.parts? = some parts)
    (index : Int64) :
    value.element index = .ok part ↔
      0 ≤ index.toInt ∧ parts[index.toInt.toNat]? = some part := by
  rw [element_eq indexed]
  constructor
  · intro found
    split at found
    · next held atIndex =>
        cases found
        exact itemAt?_eq_some atIndex
    · cases found
  · rintro ⟨notNegative, held⟩
    have atIndex : itemAt? parts index = some part := by
      rw [itemAt?, if_neg (Int.not_lt.mpr notNegative), held]
    rw [atIndex]

theorem isOk_element_iff (indexed : value.parts? = some parts)
    (index : Int64) :
    (value.element index).isOk = true ↔
      0 ≤ index.toInt ∧ index.toInt < parts.length := by
  have position (notNegative : 0 ≤ index.toInt) :
      index.toInt.toNat < parts.length ↔ index.toInt < parts.length := by
    omega
  constructor
  · intro succeeds
    cases found : value.element index with
    | error fault =>
        rw [found] at succeeds
        cases succeeds
    | ok part =>
        obtain ⟨notNegative, held⟩ := (element_eq_ok_iff indexed index).mp found
        obtain ⟨within, -⟩ := List.getElem?_eq_some_iff.mp held
        exact ⟨notNegative, (position notNegative).mp within⟩
  · rintro ⟨notNegative, within⟩
    have held := List.getElem?_eq_getElem ((position notNegative).mpr within)
    rw [(element_eq_ok_iff indexed index).mpr ⟨notNegative, held⟩]
    rfl

/-! ## Loops -/

/-- What a loop reads that goes over a number of indices one after the other,
until one of them leads to nothing. -/
def visit (value : Value) : Nat → Nat → Except Fault (List Value)
  | _, 0 => .ok []
  | index, rounds + 1 => do
      let part ← value.element (Int64.ofNat index)
      let rest ← value.visit (index + 1) rounds
      return part :: rest

variable {index rounds : Nat}

theorem visit_of_element (rounds : Nat)
    (found : value.element (Int64.ofNat index) = .ok part) :
    value.visit index (rounds + 1) =
      (value.visit (index + 1) rounds).map (part :: ·) := by
  rw [visit, found]
  cases value.visit (index + 1) rounds <;> rfl

theorem element_ofNat (indexed : value.parts? = some parts)
    (addressable : parts.length < 2 ^ 63) (within : index < parts.length) :
    value.element (Int64.ofNat index) = .ok parts[index] := by
  have same : (Int64.ofNat index).toInt = index :=
    Int64.toInt_ofNat_of_lt (Nat.lt_trans within addressable)
  rw [element_eq_ok_iff indexed, same]
  exact ⟨Int.natCast_nonneg index, List.getElem?_eq_getElem within⟩

/-- A loop up to the last part, or over fewer, reads what is there. -/
theorem visit_within (indexed : value.parts? = some parts)
    (addressable : parts.length < 2 ^ 63)
    (within : index + rounds ≤ parts.length) :
    value.visit index rounds = .ok ((parts.drop index).take rounds) := by
  induction rounds generalizing index with
  | zero => rw [visit, List.take_zero]
  | succ rounds inductionHypothesis =>
      have isPart : index < parts.length := by omega
      rw [visit_of_element rounds (element_ofNat indexed addressable isPart),
        inductionHypothesis (by omega), List.drop_eq_getElem_cons isPart]
      rfl

/-- A loop that goes on behind the last part fails right there. -/
theorem visit_beyond (indexed : value.parts? = some parts)
    (addressable : parts.length < 2 ^ 63) (within : index ≤ parts.length)
    (beyond : parts.length < index + rounds) :
    value.visit index rounds =
      .error (.indexOutOfBounds parts.length parts.length) := by
  induction rounds generalizing index with
  | zero => omega
  | succ rounds inductionHypothesis =>
      by_cases isPart : index < parts.length
      · rw [visit_of_element rounds (element_ofNat indexed addressable isPart),
          inductionHypothesis isPart (by omega)]
        rfl
      · obtain rfl : index = parts.length := by omega
        have same : (Int64.ofNat parts.length).toInt = parts.length :=
          Int64.toInt_ofNat_of_lt addressable
        have missing : itemAt? parts (Int64.ofNat parts.length) = none := by
          simp [itemAt?, same]
        rw [visit, element_eq indexed, missing, same]
        rfl

end

/-- The indices below the length of an array or a text lead to its parts exactly
if no character is wide, and then a loop over them reads every part. If some
are, it fails behind the last character. The condition on the size is met by all
that a memory can hold. -/
theorem indices_agree_iff {value : Value} {parts : List Value}
    (indexed : value.parts? = some parts)
    (addressable : parts.length + value.wideCount < 2 ^ 63) :
    ∃ length : Int64, value.member "length" = .ok (.int length) ∧
      length.toInt = parts.length + value.wideCount ∧
      (∀ index part, value.element index = .ok part ↔
        0 ≤ index.toInt ∧ parts[index.toInt.toNat]? = some part) ∧
      ((∀ index, (value.element index).isOk = true ↔
          0 ≤ index.toInt ∧ index.toInt < length.toInt) ↔
        value.wideCount = 0) ∧
      value.visit 0 length.toInt.toNat =
        if value.wideCount = 0 then .ok parts
        else .error (.indexOutOfBounds parts.length parts.length) := by
  have partsAddressable : parts.length < 2 ^ 63 := by omega
  have same : (Int64.ofNat (parts.length + value.wideCount)).toInt =
      parts.length + value.wideCount := by
    rw [Int64.toInt_ofNat_of_lt addressable, Int.natCast_add]
  refine ⟨_, member_length indexed, same,
    fun index part => element_eq_ok_iff indexed index, ?_, ?_⟩
  · simp only [same, isOk_element_iff indexed]
    constructor
    · intro agree
      -- The first index behind the parts is no index of one of them.
      have behind := agree (Int64.ofNat parts.length)
      rw [Int64.toInt_ofNat_of_lt partsAddressable] at behind
      omega
    · intro narrow index
      rw [narrow]
      simp
  · have rounds : (Int64.ofNat (parts.length + value.wideCount)).toInt.toNat =
        parts.length + value.wideCount := by
      omega
    rw [rounds]
    split
    · next narrow =>
        rw [visit_within indexed partsAddressable (by omega), narrow]
        simp
    · next wide =>
        exact visit_beyond indexed partsAddressable (Nat.zero_le _) (by omega)

/-- A text of a narrow and a wide character, whose last index leads to
nothing. -/
theorem indices_agree_iff_of_mixed :
    let value := string "a😀"
    let parts := [string "a", string "😀"]
    value.parts? = some parts ∧ parts.length + value.wideCount < 2 ^ 63 ∧
      ∃ length : Int64, value.member "length" = .ok (.int length) ∧
        length.toInt = parts.length + value.wideCount ∧
        (∀ index part, value.element index = .ok part ↔
          0 ≤ index.toInt ∧ parts[index.toInt.toNat]? = some part) ∧
        ((∀ index, (value.element index).isOk = true ↔
            0 ≤ index.toInt ∧ index.toInt < length.toInt) ↔
          value.wideCount = 0) ∧
        value.visit 0 length.toInt.toNat =
          if value.wideCount = 0 then .ok parts
          else .error (.indexOutOfBounds parts.length parts.length) := by
  intro value parts
  have indexed : value.parts? = some parts := rfl
  have addressable : parts.length + value.wideCount < 2 ^ 63 := by decide
  exact ⟨indexed, addressable, indices_agree_iff indexed addressable⟩

/-- The length of a text goes beyond its indices. -/
theorem length_exceeds_indices :
    ¬ ∀ (value : Value) (length index : Int64), value.parts?.isSome = true →
      value.member "length" = .ok (.int length) →
        ((value.element index).isOk = true ↔
          0 ≤ index.toInt ∧ index.toInt < length.toInt) := by
  intro claim
  have succeeds := (claim (string "😀") 2 1 rfl rfl).mpr (by decide)
  cases succeeds

end PluginSurface.Value
