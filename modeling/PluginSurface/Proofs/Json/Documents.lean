import PluginSurface.Proofs.Json.Numbers
import PluginSurface.Proofs.Json.Strings

/-!
# Documents are read as they were written

The text of a value in one line is read as the document of that value, whatever
stands behind it, as long as the numbers in it are read back.
-/

namespace PluginSurface

open Utf8 (encode)

/-- Whether a number is read as it was written. -/
def JsonNumber.ReadsBack (number : JsonNumber) : Prop :=
  Json.ofText? (Json.numberText number) = some (.number number)

namespace Json

mutual

/-- The numbers in a value. -/
def numbers : Json → List JsonNumber
  | .number held => [held]
  | .array items => itemNumbers items
  | .object members => memberNumbers members
  | _ => []

def itemNumbers : List Json → List JsonNumber
  | [] => []
  | item :: rest => item.numbers ++ itemNumbers rest

def memberNumbers : List (String × Json) → List JsonNumber
  | [] => []
  | (_, value) :: rest => value.numbers ++ memberNumbers rest

end

end Json

namespace Document

/-! ## Numbers as values -/

theorem first_of_numberParts? {input left : Bytes} {parts : NumberParts}
    (read : numberParts? input = some (parts, left)) :
    ∃ first rest, input = first :: rest ∧
      (first = 0x2d ∨ isDigit first = true) := by
  simp only [numberParts?, Option.bind_eq_bind, Option.bind_eq_some_iff] at read
  obtain ⟨⟨digits, _⟩, wholeRead, -⟩ := read
  obtain ⟨digitsRead, -⟩ := Option.filter_eq_some_iff.mp wholeRead
  rcases input with _ | ⟨first, rest⟩
  · cases digitsRead
  · refine ⟨first, rest, rfl, ?_⟩
    by_cases minus : first = 0x2d
    · exact .inl minus
    · right
      have unsigned : sign (first :: rest) = (false, first :: rest) := by
        rw [sign]
        simp [minus]
      rw [unsigned] at digitsRead
      by_contra noDigit
      simp [digits?, noDigit] at digitsRead

theorem value_of_numberParts? {input left : Bytes} {parts : NumberParts}
    (read : numberParts? (skipBlanks input) = some (parts, left))
    (bound : Nat) :
    value (bound + 1) input = some (.number (numberOfParts? parts), left) := by
  obtain ⟨first, rest, starts, mark⟩ := first_of_numberParts? read
  have other (byte : UInt8) (noMinus : byte ≠ 0x2d)
      (noDigit : isDigit byte = false) : first ≠ byte := by
    rintro rfl
    rcases mark with minus | digit
    · exact noMinus minus
    · exact absurd digit (by simp [noDigit])
  have noNull : ¬ (first == 0x6e) = true := by
    simpa using other 0x6e (by decide) (by decide)
  have noTrue : ¬ (first == 0x74) = true := by
    simpa using other 0x74 (by decide) (by decide)
  have noFalse : ¬ (first == 0x66) = true := by
    simpa using other 0x66 (by decide) (by decide)
  rw [value, starts]
  split
  · cases ‹first :: rest = []›
  · exact absurd (List.cons.inj ‹_›).1 (other _ (by decide) (by decide))
  · exact absurd (List.cons.inj ‹_›).1 (other _ (by decide) (by decide))
  · exact absurd (List.cons.inj ‹_›).1 (other _ (by decide) (by decide))
  · rename_i same
    cases same
    rw [if_neg noNull, if_neg noTrue, if_neg noFalse, ← starts, read]
    rfl

theorem numberParts?_of_value {bound : Nat} {input left : Bytes}
    {number : Option JsonNumber}
    (read : value bound input = some (.number number, left)) :
    ∃ parts, numberParts? (skipBlanks input) = some (parts, left) ∧
      number = numberOfParts? parts := by
  rcases bound with _ | bound
  · cases read
  · rw [value] at read
    -- All forms but the last one make another document than a number.
    split at read
    · cases read
    · simp [Option.bind_eq_some_iff] at read
    · split at read <;> simp [Option.bind_eq_some_iff] at read
    · split at read <;> simp [Option.bind_eq_some_iff] at read
    · rename_i starts
      split_ifs at read
      · simp [Option.bind_eq_some_iff] at read
      · simp [Option.bind_eq_some_iff] at read
      · simp [Option.bind_eq_some_iff] at read
      · simp only [Option.bind_eq_bind, Option.bind_eq_some_iff,
          Option.some.injEq, Prod.mk.injEq, Document.number.injEq] at read
        obtain ⟨⟨parts, rest⟩, partsRead, same, rfl⟩ := read
        exact ⟨parts, starts ▸ partsRead, same.symm⟩

theorem skipBlanks_append_of_ne_nil {input : Bytes}
    (nonempty : skipBlanks input ≠ []) (rest : Bytes) :
    skipBlanks (input ++ rest) = skipBlanks input ++ rest := by
  have more : ¬ (input.dropWhile isBlank).isEmpty = true := by
    rwa [List.isEmpty_iff]
  rw [skipBlanks, List.dropWhile_append, if_neg more]
  rfl

theorem skipBlanks_append_of_nil {input : Bytes} (blank : skipBlanks input = [])
    (rest : Bytes) : skipBlanks (input ++ rest) = skipBlanks rest := by
  have nothing : (input.dropWhile isBlank).isEmpty = true := by
    rwa [List.isEmpty_iff]
  rw [skipBlanks, List.dropWhile_append, if_pos nothing]
  rfl

theorem eq_number_of_value? {depth : Nat} {document : Document}
    {number : JsonNumber}
    (held : document.value? depth = some (.number number)) :
    document = .number (some number) := by
  cases document with
  | number value =>
      rw [value?, Option.map_eq_some_iff] at held
      obtain ⟨value, rfl, same⟩ := held
      cases same
      rfl
  | array _ | object _ => cases depth <;> simp [value?] at held
  | _ => simp [value?] at held

/-- A number that is read back on its own is read in front of any text that ends
it. -/
theorem value_of_readsBack {number : JsonNumber} (readsBack : number.ReadsBack)
    {rest : Bytes} (ends : EndsNumber rest) {bound : Nat}
    (positive : 0 < bound) :
    ∃ left,
      value bound (encode (Json.numberText number).toList ++ rest) =
          some (.number (some number), left) ∧
        skipBlanks left = skipBlanks rest := by
  rw [JsonNumber.ReadsBack, Json.ofText?, Document.ofText?, ofBytes?,
    Utf8.toUTF8_toList] at readsBack
  generalize encode (Json.numberText number).toList = input at readsBack ⊢
  simp only [Option.bind_eq_bind, Option.bind_eq_some_iff,
    Option.ite_none_right_eq_some, Option.some.injEq] at readsBack
  obtain ⟨_, ⟨⟨_, left⟩, read, blank, rfl⟩, isNumber⟩ := readsBack
  cases eq_number_of_value? isNumber
  obtain ⟨parts, partsRead, value⟩ := numberParts?_of_value read
  have nonempty : skipBlanks input ≠ [] := by
    obtain ⟨first, tail, starts, -⟩ := first_of_numberParts? partsRead
    simp [starts]
  have partsBefore : numberParts? (skipBlanks (input ++ rest)) =
      some (parts, left ++ rest) := by
    rw [skipBlanks_append_of_ne_nil nonempty]
    exact numberParts?_append ends partsRead
  obtain ⟨bound, rfl⟩ := Nat.exists_eq_add_of_lt positive
  rw [Nat.zero_add, value_of_numberParts? partsBefore, ← value]
  exact ⟨_, rfl, skipBlanks_append_of_nil (List.isEmpty_iff.mp blank) rest⟩

theorem readsBack_whole {value : Int} (least : -9223372036854775808 ≤ value)
    (greatest : value < 18446744073709551616) :
    (JsonNumber.whole value).ReadsBack := by
  obtain ⟨parts, partsRead, isValue⟩ := numberParts?_whole least greatest
  rw [JsonNumber.ReadsBack, Json.ofText?, Document.ofText?, ofBytes?,
    Utf8.toUTF8_toList]
  generalize encode (Json.numberText (.whole value)).toList = input
    at partsRead ⊢
  have noBlank : skipBlanks input = input := by
    obtain ⟨first, tail, rfl, mark⟩ := first_of_numberParts? partsRead
    have notBlank : isBlank first = false := by
      by_contra blank
      simp only [isBlank, Bool.not_eq_false, Bool.or_eq_true,
        beq_iff_eq] at blank
      rcases blank with ((rfl | rfl) | rfl) | rfl <;>
        exact absurd mark (by decide)
    rw [skipBlanks, List.dropWhile_cons_of_neg (by simp [notBlank])]
  rw [value_of_numberParts? (noBlank.symm ▸ partsRead), isValue]
  rfl

/-! ## Values -/

open Json (compact compactItems compactMembers toDocument toDocuments
  toDocumentMembers itemNumbers memberNumbers)

/-- No value begins with a closing bracket. -/
theorem not_bracket_of_value {bound : Nat} {input : Bytes}
    {read : Document × Bytes} (found : value bound input = some read)
    (rest : Bytes) : skipBlanks input ≠ 0x5d :: rest := by
  intro starts
  rcases bound with _ | bound
  · cases found
  · have noNumber : numberParts? (0x5d :: rest) = none := by
      rw [Option.eq_none_iff_forall_not_mem]
      rintro ⟨parts, left⟩ partsRead
      obtain ⟨_, _, same, mark⟩ := first_of_numberParts? partsRead
      cases same
      exact absurd mark (by decide)
    rw [value, starts] at found
    simp [noNumber] at found

/-- What is read of a value in front of a text. -/
def Reads (json : Json) (bound : Nat) (rest : Bytes) : Prop :=
  ∃ left,
    value bound (encode json.compact.toList ++ rest) =
        some (json.toDocument, left) ∧
      skipBlanks left = skipBlanks rest

theorem skipBlanks_cons {first : UInt8} (notBlank : isBlank first = false)
    (rest : Bytes) : skipBlanks (first :: rest) = first :: rest :=
  List.dropWhile_cons_of_neg (by simp [notBlank])

theorem literal?_append (word : String) (rest : Bytes) :
    literal? word (encode word.toList ++ rest) = some rest := by
  have starts : (encode word.toList).isPrefixOf (encode word.toList ++ rest) =
      true := List.isPrefixOf_iff_prefix.mpr (List.prefix_append _ _)
  rw [literal?, Utf8.toUTF8_toList, if_pos starts, List.drop_left]

theorem encode_quote (text : String) (rest : Bytes) :
    encode (Json.quote text).toList ++ rest =
      0x22 :: (encode (text.toList.flatMap Json.escapeChar) ++
        0x22 :: rest) := by
  have mark : String.utf8EncodeChar '"' = [0x22] := rfl
  rw [Json.quote, String.toList_ofList, List.cons_append, Utf8.encode_cons,
    Utf8.encode_append, Utf8.encode_cons, mark]
  simp

theorem reads_null (bound : Nat) (rest : Bytes) :
    Reads .null (bound + 1) rest := by
  have literal := literal?_append "null" rest
  have written : encode "null".toList = [0x6e, 0x75, 0x6c, 0x6c] := by decide
  refine ⟨rest, ?_, rfl⟩
  simp only [written, List.cons_append, List.nil_append] at literal
  rw [compact, written, List.cons_append, value, skipBlanks_cons rfl]
  simp [literal, toDocument]

theorem reads_true (bound : Nat) (rest : Bytes) :
    Reads (.bool true) (bound + 1) rest := by
  have literal := literal?_append "true" rest
  have written : encode "true".toList = [0x74, 0x72, 0x75, 0x65] := by decide
  refine ⟨rest, ?_, rfl⟩
  simp only [written, List.cons_append, List.nil_append] at literal
  rw [compact, written, List.cons_append, value, skipBlanks_cons rfl]
  simp [literal, toDocument]

theorem reads_false (bound : Nat) (rest : Bytes) :
    Reads (.bool false) (bound + 1) rest := by
  have literal := literal?_append "false" rest
  have written : encode "false".toList = [0x66, 0x61, 0x6c, 0x73, 0x65] := by
    decide
  refine ⟨rest, ?_, rfl⟩
  simp only [written, List.cons_append, List.nil_append] at literal
  rw [compact, written, List.cons_append, value, skipBlanks_cons rfl]
  simp [literal, toDocument]

theorem reads_string (text : String) (bound : Nat) (rest : Bytes) :
    Reads (.string text) (bound + 1) rest := by
  refine ⟨rest, ?_, rfl⟩
  rw [compact, encode_quote, value, skipBlanks_cons rfl]
  simp [string?_escaped, toDocument]

theorem encode_surrounded (opening closing content : String) (rest : Bytes) :
    encode (opening ++ content ++ closing).toList ++ rest =
      encode opening.toList ++
        (encode content.toList ++ (encode closing.toList ++ rest)) := by
  simp only [String.toList_append, Utf8.encode_append, List.append_assoc]

/-- The bytes of texts with commas between them. -/
def divided (texts : List String) : Bytes :=
  encode (String.intercalate "," texts).toList

theorem divided_singleton (text : String) :
    divided [text] = encode text.toList := by
  rw [divided, String.intercalate_singleton]

theorem divided_cons (first next : String) (more : List String) :
    divided (first :: next :: more) =
      encode first.toList ++ 0x2c :: divided (next :: more) := by
  have comma : encode ",".toList = [0x2c] := by decide
  rw [divided, String.intercalate_cons_cons, String.toList_append,
    String.toList_append, Utf8.encode_append, Utf8.encode_append, comma,
    List.append_assoc]
  rfl

theorem encode_array (values : List Json) (rest : Bytes) :
    encode (Json.array values).compact.toList ++ rest =
      0x5b :: (divided (compactItems values) ++ 0x5d :: rest) := by
  have opening : encode "[".toList = [0x5b] := by decide
  have closing : encode "]".toList = [0x5d] := by decide
  rw [compact, encode_surrounded, opening, closing]
  rfl

theorem encode_object (entries : List (String × Json)) (rest : Bytes) :
    encode (Json.object entries).compact.toList ++ rest =
      0x7b :: (divided (compactMembers entries) ++ 0x7d :: rest) := by
  have opening : encode "\x7b".toList = [0x7b] := by decide
  have closing : encode "\x7d".toList = [0x7d] := by decide
  rw [compact, encode_surrounded, opening, closing]
  rfl

theorem encode_member (key : String) (value : Json) (rest : Bytes) :
    encode (Json.quote key ++ ":" ++ value.compact).toList ++ rest =
      0x22 :: (encode (key.toList.flatMap Json.escapeChar) ++
        0x22 :: 0x3a :: (encode value.compact.toList ++ rest)) := by
  have colon : encode ":".toList = [0x3a] := by decide
  rw [encode_surrounded, encode_quote, colon]
  rfl

theorem endsNumber_cons {first : UInt8} (ends : EndsNumber [first])
    (rest : Bytes) : EndsNumber (first :: rest) :=
  ends

theorem endsNumber_comma (rest : Bytes) : EndsNumber (0x2c :: rest) :=
  endsNumber_cons (by simp [EndsNumber, isDigit]) rest

theorem endsNumber_bracket (rest : Bytes) : EndsNumber (0x5d :: rest) :=
  endsNumber_cons (by simp [EndsNumber, isDigit]) rest

theorem endsNumber_brace (rest : Bytes) : EndsNumber (0x7d :: rest) :=
  endsNumber_cons (by simp [EndsNumber, isDigit]) rest

theorem value_bracket (bound : Nat) (input : Bytes) :
    value (bound + 1) (0x5b :: input) =
      match skipBlanks input with
      | 0x5d :: rest => some (.array [], rest)
      | _ => do
          let read ← items bound input
          return (.array read.1, read.2) := by
  rw [value, skipBlanks_cons rfl]
  rfl

theorem value_brace (bound : Nat) (input : Bytes) :
    value (bound + 1) (0x7b :: input) =
      match skipBlanks input with
      | 0x7d :: rest => some (.object [], rest)
      | _ => do
          let read ← members bound input
          return (.object read.1, read.2) := by
  rw [value, skipBlanks_cons rfl]
  rfl

/-- An array with items is read if its items are. -/
theorem value_of_items {bound : Nat} {input rest : Bytes}
    {documents : List Document}
    (read : items bound input = some (documents, rest)) :
    value (bound + 1) (0x5b :: input) = some (.array documents, rest) := by
  have notEmpty : ∀ left, skipBlanks input ≠ 0x5d :: left := by
    intro left closes
    rcases bound with _ | bound
    · cases read
    · rw [items] at read
      cases found : value bound input with
      | none => simp [found] at read
      | some pair => exact not_bracket_of_value found left closes
  rw [value_bracket]
  split
  · exact absurd ‹_› (notEmpty _)
  · rw [read]
    rfl

/-- An object with members is read if they are. They begin with a key. -/
theorem value_of_members {bound : Nat} {input rest : Bytes}
    {documents : List (Option String × Document)}
    (read : members bound input = some (documents, rest)) :
    value (bound + 1) (0x7b :: input) = some (.object documents, rest) := by
  have notEmpty : ∀ left, skipBlanks input ≠ 0x7d :: left := by
    intro left closes
    rcases bound with _ | bound
    · cases read
    · rw [members, closes] at read
      cases read
  rw [value_brace]
  split
  · exact absurd ‹_› (notEmpty _)
  · rw [read]
    rfl

/-- The last member, in front of the closing brace. -/
theorem members_of_last {bound : Nat} {key : String} {document : Document}
    {input left rest : Bytes} (read : value bound input = some (document, left))
    (closes : skipBlanks left = 0x7d :: rest) :
    members (bound + 1)
        (0x22 :: (encode (key.toList.flatMap Json.escapeChar) ++
          0x22 :: 0x3a :: input)) =
      some ([(some key, document)], rest) := by
  rw [members, skipBlanks_cons rfl]
  simp only [string?_escaped, Option.bind_eq_bind, Option.bind_some,
    skipBlanks_cons (show isBlank 0x3a = false from rfl), read, closes]

/-- A member in front of others. -/
theorem members_of_more {bound : Nat} {key : String} {document : Document}
    {others : List (Option String × Document)} {input left next rest : Bytes}
    (read : value bound input = some (document, left))
    (goesOn : skipBlanks left = 0x2c :: next)
    (more : members bound next = some (others, rest)) :
    members (bound + 1)
        (0x22 :: (encode (key.toList.flatMap Json.escapeChar) ++
          0x22 :: 0x3a :: input)) =
      some ((some key, document) :: others, rest) := by
  rw [members, skipBlanks_cons rfl]
  simp only [string?_escaped, Option.bind_eq_bind, Option.bind_some,
    skipBlanks_cons (show isBlank 0x3a = false from rfl), read, goesOn, more]

mutual

/-- A value is read as it was written. -/
theorem reads_compact (json : Json) (bound : Nat) (rest : Bytes)
    (readsBack : ∀ number ∈ json.numbers, number.ReadsBack)
    (enough : 2 * (encode json.compact.toList).length < bound)
    (ends : EndsNumber rest) : Reads json bound rest := by
  obtain ⟨bound, rfl⟩ := Nat.exists_eq_add_of_lt (Nat.zero_lt_of_lt enough)
  rw [Nat.zero_add] at enough ⊢
  cases json with
  | null => exact reads_null bound rest
  | bool value =>
      cases value with
      | false => exact reads_false bound rest
      | true => exact reads_true bound rest
  | number held =>
      exact value_of_readsBack (readsBack held List.mem_cons_self) ends
        (Nat.succ_pos bound)
  | string text => exact reads_string text bound rest
  | array values =>
      refine ⟨rest, ?_, rfl⟩
      rw [encode_array]
      cases values with
      | nil => rfl
      | cons first more =>
          have size := congrArg List.length (encode_array (first :: more) [])
          simp only [List.length_append, List.length_cons,
            List.length_nil] at size
          exact value_of_items (items_compact (first :: more) bound rest
            (List.cons_ne_nil first more) readsBack (by omega))
  | object entries =>
      refine ⟨rest, ?_, rfl⟩
      rw [encode_object]
      cases entries with
      | nil => rfl
      | cons first more =>
          have size := congrArg List.length (encode_object (first :: more) [])
          simp only [List.length_append, List.length_cons,
            List.length_nil] at size
          exact value_of_members (members_compact (first :: more) bound rest
            (List.cons_ne_nil first more) readsBack (by omega))

theorem items_compact (values : List Json) (bound : Nat) (rest : Bytes)
    (nonempty : values ≠ [])
    (readsBack : ∀ number ∈ itemNumbers values, number.ReadsBack)
    (enough : 2 * (divided (compactItems values)).length + 1 < bound) :
    items bound (divided (compactItems values) ++ 0x5d :: rest) =
      some (toDocuments values, rest) := by
  obtain ⟨bound, rfl⟩ := Nat.exists_eq_add_of_lt (Nat.zero_lt_of_lt enough)
  rw [Nat.zero_add] at enough ⊢
  cases values with
  | nil => exact absurd rfl nonempty
  | cons first more =>
      have readsBackFirst : ∀ number ∈ first.numbers, number.ReadsBack :=
        fun number member => readsBack number (List.mem_append_left _ member)
      cases more with
      | nil =>
          simp only [compactItems, divided_singleton] at enough ⊢
          obtain ⟨left, read, same⟩ := reads_compact first bound (0x5d :: rest)
            readsBackFirst (by omega) (endsNumber_bracket rest)
          rw [skipBlanks_cons rfl] at same
          simp [items, read, same, toDocuments]
      | cons next later =>
          simp only [compactItems, divided_cons, List.length_append,
            List.length_cons, List.append_assoc,
            List.cons_append] at enough ⊢
          obtain ⟨left, read, same⟩ := reads_compact first bound
            (0x2c :: (divided (compactItems (next :: later)) ++ 0x5d :: rest))
            readsBackFirst (by omega) (endsNumber_comma _)
          have more := items_compact (next :: later) bound rest
            (List.cons_ne_nil next later)
            (fun number member =>
              readsBack number (List.mem_append_right _ member))
            (by simp only [compactItems]; omega)
          rw [skipBlanks_cons rfl] at same
          simp only [compactItems] at read same more
          simp [items, read, same, more, toDocuments]

theorem members_compact (entries : List (String × Json)) (bound : Nat)
    (rest : Bytes) (nonempty : entries ≠ [])
    (readsBack : ∀ number ∈ memberNumbers entries, number.ReadsBack)
    (enough : 2 * (divided (compactMembers entries)).length + 1 < bound) :
    members bound (divided (compactMembers entries) ++ 0x7d :: rest) =
      some (toDocumentMembers entries, rest) := by
  obtain ⟨bound, rfl⟩ := Nat.exists_eq_add_of_lt (Nat.zero_lt_of_lt enough)
  rw [Nat.zero_add] at enough ⊢
  cases entries with
  | nil => exact absurd rfl nonempty
  | cons first more =>
      obtain ⟨key, held⟩ := first
      have size := congrArg List.length (encode_member key held [])
      simp only [List.length_append, List.length_cons, List.length_nil] at size
      have readsBackFirst : ∀ number ∈ held.numbers, number.ReadsBack :=
        fun number member => readsBack number (List.mem_append_left _ member)
      cases more with
      | nil =>
          simp only [compactMembers, divided_singleton] at enough ⊢
          obtain ⟨left, read, same⟩ := reads_compact held bound (0x7d :: rest)
            readsBackFirst (by omega) (endsNumber_brace rest)
          rw [skipBlanks_cons rfl] at same
          rw [encode_member, members_of_last read same]
          rfl
      | cons next later =>
          obtain ⟨nextKey, nextHeld⟩ := next
          simp only [compactMembers, divided_cons, List.length_append,
            List.length_cons, List.append_assoc, List.cons_append] at enough ⊢
          have more := members_compact ((nextKey, nextHeld) :: later) bound rest
            (List.cons_ne_nil _ later)
            (fun number member =>
              readsBack number (List.mem_append_right _ member))
            (by simp only [compactMembers]; omega)
          simp only [compactMembers] at more
          obtain ⟨left, read, same⟩ := reads_compact held bound (0x2c :: _)
            readsBackFirst (by omega) (endsNumber_comma _)
          rw [skipBlanks_cons rfl] at same
          rw [encode_member, members_of_more read same more]
          rfl

end

/-- A text is read as the value that it was written for. -/
theorem ofBytes?_compact {json : Json}
    (readsBack : ∀ number ∈ json.numbers, number.ReadsBack) :
    ofBytes? json.compact.toUTF8.toList = some json.toDocument := by
  rw [Utf8.toUTF8_toList, ofBytes?]
  have nothing : EndsNumber [] := by simp [EndsNumber]
  obtain ⟨left, read, blank⟩ := reads_compact json
    (2 * (encode json.compact.toList).length + 2) [] readsBack (by omega)
    nothing
  rw [List.append_nil] at read
  simp only [read, Option.bind_eq_bind, Option.bind_some, blank]
  rfl

end Document

/-! ## Values of documents -/

namespace Json

mutual

/-- How deep arrays and objects are nested in a value. -/
def depth : Json → Nat
  | .array items => itemsDepth items + 1
  | .object members => membersDepth members + 1
  | _ => 0

def itemsDepth : List Json → Nat
  | [] => 0
  | item :: rest => max item.depth (itemsDepth rest)

def membersDepth : List (String × Json) → Nat
  | [] => 0
  | (_, value) :: rest => max value.depth (membersDepth rest)

end

mutual

/-- Whether all objects in a value are dictionaries. -/
def IsSorted : Json → Prop
  | .array items => ItemsSorted items
  | .object members =>
      Dict.ofEntries members = members ∧ MembersSorted members
  | _ => True

def ItemsSorted : List Json → Prop
  | [] => True
  | item :: rest => item.IsSorted ∧ ItemsSorted rest

def MembersSorted : List (String × Json) → Prop
  | [] => True
  | (_, value) :: rest => value.IsSorted ∧ MembersSorted rest

end

mutual

/-- A document of a value stands for it, if its containers do not nest too
deep. -/
theorem value?_toDocument (json : Json) (limit : Nat) (sorted : json.IsSorted)
    (fits : json.depth ≤ limit) :
    json.toDocument.value? limit = some json := by
  cases json with
  | array items =>
      obtain ⟨limit, rfl⟩ := Nat.exists_eq_add_of_lt fits
      have inside : itemsDepth items ≤ itemsDepth items + limit :=
        Nat.le_add_right _ limit
      simp [toDocument, Document.value?,
        itemValues?_toDocuments items _ sorted inside]
  | object members =>
      obtain ⟨limit, rfl⟩ := Nat.exists_eq_add_of_lt fits
      have inside : membersDepth members ≤ membersDepth members + limit :=
        Nat.le_add_right _ limit
      simp [toDocument, Document.value?,
        memberValues?_toDocumentMembers members _ sorted.2 inside, sorted.1]
  | _ => simp [toDocument, Document.value?]

theorem itemValues?_toDocuments (items : List Json) (limit : Nat)
    (sorted : ItemsSorted items) (fits : itemsDepth items ≤ limit) :
    Document.itemValues? limit (toDocuments items) = some items := by
  cases items with
  | nil => rfl
  | cons item rest =>
      have first := value?_toDocument item limit sorted.1
        (Nat.le_trans (Nat.le_max_left _ _) fits)
      have others := itemValues?_toDocuments rest limit sorted.2
        (Nat.le_trans (Nat.le_max_right _ _) fits)
      simp [toDocuments, Document.itemValues?, first, others]

theorem memberValues?_toDocumentMembers (members : List (String × Json))
    (limit : Nat) (sorted : MembersSorted members)
    (fits : membersDepth members ≤ limit) :
    Document.memberValues? limit (toDocumentMembers members) =
      some members := by
  cases members with
  | nil => rfl
  | cons member rest =>
      have first := value?_toDocument member.2 limit sorted.1
        (Nat.le_trans (Nat.le_max_left _ _) fits)
      have others := memberValues?_toDocumentMembers rest limit sorted.2
        (Nat.le_trans (Nat.le_max_right _ _) fits)
      simp [toDocumentMembers, Document.memberValues?, first, others]

end

end Json

end PluginSurface
