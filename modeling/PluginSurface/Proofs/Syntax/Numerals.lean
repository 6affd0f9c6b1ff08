import Mathlib.Data.List.TakeWhile
import PluginSurface.Syntax.Scan

/-!
# Numbers as they are written

A decimal number is made of digits, a fraction and an exponent, each of which
can be told from what stands before it. So the parts are found again in the
spelling, and a number is read from its spelling as it is read from a text that
goes on.
-/

namespace PluginSurface

namespace Scan

/-- What divides a text in two where a test fails for the first time. -/
theorem span_append {test : Char → Bool} {front rest : List Char}
    (inside : ∀ char ∈ front, test char = true)
    (stops : ∀ char, rest.head? = some char → test char = false) :
    (front ++ rest).takeWhile test = front ∧
      (front ++ rest).dropWhile test = rest := by
  rw [List.takeWhile_append_of_pos inside, List.dropWhile_append_of_pos inside]
  cases rest with
  | nil => simp
  | cons char rest => simp [stops char rfl]

/-- Characters that a number in front of them does not take. -/
structure EndsNumber (rest : List Char) : Prop where
  word : ∀ next, rest.head? = some next → isWordPart next = false
  number : startsNumber rest = false

theorem endsNumber_nil : EndsNumber [] :=
  ⟨nofun, rfl⟩

/-! ## Decimal numbers -/

/-- Digits after a decimal point as they are written. -/
def IsFraction (digits : List Char) : Prop :=
  ∃ digit more, digits = digit :: more ∧ digit.isDigit = true ∧
    ∀ char ∈ more, isDigitOrUnderscore char = true

/-- The marks that an exponent may start with. -/
def exponentMarks : List (List Char) :=
  [['e'], ['E'], ['e', '+'], ['e', '-'], ['E', '+'], ['E', '-']]

/-- An exponent as it is written: a mark and digits. -/
def IsExponent (mark digits : List Char) : Prop :=
  mark ∈ exponentMarks ∧ digits ≠ [] ∧ ∀ char ∈ digits, char.isDigit = true

namespace DecimalParts

/-- Parts that can be told from each other where they are written. -/
structure Separable (parts : DecimalParts) : Prop where
  whole : ∀ char ∈ parts.whole, isDigitOrUnderscore char = true
  fraction : ∀ digits, parts.fraction = some digits → IsFraction digits
  exponent : ∀ mark digits, parts.exponent = some (mark, digits) →
    IsExponent mark digits

def fractionSpelling (parts : DecimalParts) : List Char :=
  match parts.fraction with
  | some digits => '.' :: digits
  | none => []

def exponentSpelling (parts : DecimalParts) : List Char :=
  match parts.exponent with
  | some (mark, digits) => mark ++ digits
  | none => []

theorem spelling_eq (parts : DecimalParts) :
    parts.spelling =
      parts.whole ++ (parts.fractionSpelling ++ parts.exponentSpelling) :=
  List.append_assoc _ _ _

end DecimalParts

theorem isDigitOrUnderscore_of_isDigit {char : Char}
    (isDigit : char.isDigit = true) : isDigitOrUnderscore char = true := by
  simp [isDigitOrUnderscore, isDigit]

theorem isDigitOrUnderscore_of_noWord {char : Char}
    (noWord : isWordPart char = false) : isDigitOrUnderscore char = false := by
  simp only [isWordPart, Char.isAlphanum, Bool.or_eq_false_iff] at noWord
  simp [isDigitOrUnderscore, noWord.1.1.2, noWord.1.2]

/-! ### Fractions -/

theorem fraction?_eq_some {chars digits rest : List Char}
    (found : fraction? chars = (some digits, rest)) :
    IsFraction digits ∧ chars = '.' :: digits ++ rest := by
  unfold fraction? at found
  split at found
  · next digit behind =>
      split at found
      · next isDigit =>
          cases found
          refine ⟨⟨digit, behind.takeWhile isDigitOrUnderscore, ?_, isDigit,
            fun _ member => List.mem_takeWhile_imp member⟩, ?_⟩
          · rw [List.takeWhile_cons,
              if_pos (isDigitOrUnderscore_of_isDigit isDigit)]
          · rw [List.cons_append, List.takeWhile_append_dropWhile]
      · cases found
  · cases found

theorem fraction?_eq_none {chars rest : List Char}
    (found : fraction? chars = (none, rest)) : chars = rest := by
  unfold fraction? at found
  split at found
  · split at found
    · cases found
    · cases found
      rfl
  · cases found
    rfl

theorem fraction?_append {digits rest : List Char}
    (isFraction : IsFraction digits)
    (stops : ∀ char, rest.head? = some char →
      isDigitOrUnderscore char = false) :
    fraction? ('.' :: digits ++ rest) = (some digits, rest) := by
  obtain ⟨digit, more, rfl, isDigit, areDigits⟩ := isFraction
  have inside : ∀ char ∈ digit :: more, isDigitOrUnderscore char = true :=
    List.forall_mem_cons.mpr
      ⟨isDigitOrUnderscore_of_isDigit isDigit, areDigits⟩
  have parts := span_append inside stops
  rw [List.cons_append] at parts
  simp [fraction?, isDigit, parts]

/-- A point belongs to a number only in front of a digit. -/
theorem fraction?_of_noNumber {chars : List Char}
    (noFraction : chars.head? = some '.' → startsNumber chars = false) :
    fraction? chars = (none, chars) := by
  unfold fraction?
  split
  · next digit rest =>
      have noDigit : digit.isDigit = false := noFraction rfl
      rw [noDigit]
      rfl
  · rfl

/-! ### Exponents -/

theorem isExponent_takeWhile {mark behind : List Char}
    (isMark : mark ∈ exponentMarks)
    (nonempty : behind.takeWhile Char.isDigit ≠ []) :
    IsExponent mark (behind.takeWhile Char.isDigit) ∧
      mark ++ behind.takeWhile Char.isDigit <+: mark ++ behind :=
  ⟨⟨isMark, nonempty, fun _ member => List.mem_takeWhile_imp member⟩,
    List.prefix_append_right_inj _ |>.mpr (List.takeWhile_prefix _)⟩

theorem exponent?_eq_some {chars mark digits : List Char}
    (found : exponent? chars = some (mark, digits)) :
    IsExponent mark digits ∧ mark ++ digits <+: chars := by
  rcases chars with _ | ⟨letter, _ | ⟨sign, behind⟩⟩
  · cases found
  · simp [exponent?] at found
  by_cases isLetter : (letter = 'e' || letter = 'E') = true
  · by_cases isSign : (sign = '+' || sign = '-') = true
    · simp only [exponent?, isLetter, isSign, if_true] at found
      split at found
      · cases found
      · next nonempty =>
          cases found
          refine isExponent_takeWhile ?_ nonempty
          simp only [Bool.or_eq_true, decide_eq_true_iff] at isLetter isSign
          rcases isLetter with rfl | rfl <;> rcases isSign with rfl | rfl <;>
            decide
    · simp only [exponent?, isLetter, isSign, if_true, Bool.false_eq_true,
        if_false] at found
      split at found
      · cases found
      · next nonempty =>
          cases found
          refine isExponent_takeWhile ?_ nonempty
          simp only [Bool.or_eq_true, decide_eq_true_iff] at isLetter
          rcases isLetter with rfl | rfl <;> decide
  · simp [exponent?, isLetter] at found

theorem exponent?_append {mark digits rest : List Char}
    (isExponent : IsExponent mark digits)
    (stops : ∀ char, rest.head? = some char → char.isDigit = false) :
    exponent? (mark ++ (digits ++ rest)) = some (mark, digits) := by
  obtain ⟨isMark, nonempty, areDigits⟩ := isExponent
  have all := (span_append areDigits stops).1
  cases digits with
  | nil => exact absurd rfl nonempty
  | cons digit digits =>
      have notSign : ¬(digit = '+' ∨ digit = '-') := by
        have isDigit := areDigits digit List.mem_cons_self
        rintro (rfl | rfl) <;> exact absurd isDigit (by decide)
      simp only [exponentMarks, List.mem_cons, List.not_mem_nil, or_false]
        at isMark
      rw [List.cons_append] at all ⊢
      rcases isMark with rfl | rfl | rfl | rfl | rfl | rfl <;>
        simp [exponent?, all, notSign]

theorem exponent?_eq_none {rest : List Char} (ends : EndsNumber rest) :
    exponent? rest = none := by
  cases rest with
  | nil => rfl
  | cons mark rest =>
      have noWord := ends.word mark rfl
      have noMark : ¬(mark = 'e' || mark = 'E') = true := by
        simp only [Bool.or_eq_true, decide_eq_true_iff]
        rintro (rfl | rfl) <;> cases noWord
      exact if_neg noMark

theorem IsExponent.head {mark digits more : List Char} {char : Char}
    (isExponent : IsExponent mark digits)
    (first : (mark ++ more).head? = some char) : char = 'e' ∨ char = 'E' := by
  obtain ⟨isMark, -, -⟩ := isExponent
  simp only [exponentMarks, List.mem_cons, List.not_mem_nil, or_false]
    at isMark
  rcases isMark with rfl | rfl | rfl | rfl | rfl | rfl <;> cases first <;> simp

/-! ### Parts -/

/-- Parts that are read can be told from each other. -/
theorem decimalParts_separable (chars : List Char) :
    (decimalParts chars).Separable := by
  refine ⟨fun _ member => List.mem_takeWhile_imp member,
    fun digits given => ?_, fun _ _ given => (exponent?_eq_some given).1⟩
  exact (fraction?_eq_some (Prod.ext given rfl)).1

theorem fractionSpelling_append (chars : List Char) :
    (decimalParts chars).fractionSpelling ++
        (fraction? (chars.dropWhile isDigitOrUnderscore)).2 =
      chars.dropWhile isDigitOrUnderscore := by
  unfold DecimalParts.fractionSpelling decimalParts
  cases found : fraction? (chars.dropWhile isDigitOrUnderscore) with
  | mk fraction rest =>
      cases fraction with
      | none => exact (fraction?_eq_none found).symm
      | some digits => exact (fraction?_eq_some found).2.symm

theorem exponentSpelling_isPrefix (chars : List Char) :
    (decimalParts chars).exponentSpelling <+:
      (fraction? (chars.dropWhile isDigitOrUnderscore)).2 := by
  unfold DecimalParts.exponentSpelling
  split
  · next given => exact (exponent?_eq_some given).2
  · exact List.nil_prefix

/-- The parts of a number stand at the front of a text. -/
theorem spelling_isPrefix (chars : List Char) :
    (decimalParts chars).spelling <+: chars := by
  have behindWhole : (decimalParts chars).fractionSpelling ++
      (decimalParts chars).exponentSpelling <+:
        chars.dropWhile isDigitOrUnderscore := by
    rw [← fractionSpelling_append chars]
    exact List.prefix_append_right_inj _ |>.mpr
      (exponentSpelling_isPrefix chars)
  calc (decimalParts chars).spelling
    _ = (decimalParts chars).whole ++ ((decimalParts chars).fractionSpelling ++
          (decimalParts chars).exponentSpelling) :=
        DecimalParts.spelling_eq _
    _ <+: chars.takeWhile isDigitOrUnderscore ++
          chars.dropWhile isDigitOrUnderscore :=
        List.prefix_append_right_inj _ |>.mpr behindWhole
    _ = chars := List.takeWhile_append_dropWhile

namespace DecimalParts

variable {parts : DecimalParts} {rest : List Char}

theorem Separable.head_exponentSpelling (separable : parts.Separable)
    (ends : EndsNumber rest) {char : Char}
    (first : (parts.exponentSpelling ++ rest).head? = some char) :
    isDigitOrUnderscore char = false ∧
      (char = '.' → startsNumber (parts.exponentSpelling ++ rest) = false) := by
  unfold exponentSpelling at first ⊢
  split at first
  · next given =>
      rw [List.append_assoc] at first
      rcases (separable.exponent _ _ given).head first with rfl | rfl <;>
        exact ⟨by decide, nofun⟩
  · exact ⟨isDigitOrUnderscore_of_noWord (ends.word char first),
      fun _ => ends.number⟩

theorem Separable.exponent?_exponentSpelling (separable : parts.Separable)
    (ends : EndsNumber rest) :
    exponent? (parts.exponentSpelling ++ rest) = parts.exponent := by
  unfold exponentSpelling
  split
  · next given =>
      rw [given, List.append_assoc, exponent?_append
        (separable.exponent _ _ given) fun char first => ?_]
      have noWord := isDigitOrUnderscore_of_noWord (ends.word char first)
      exact (Bool.or_eq_false_iff.mp noWord).1
  · next absent => rw [absent, List.nil_append, exponent?_eq_none ends]

theorem Separable.fraction?_fractionSpelling (separable : parts.Separable)
    (ends : EndsNumber rest) :
    fraction? (parts.fractionSpelling ++ (parts.exponentSpelling ++ rest)) =
      (parts.fraction, parts.exponentSpelling ++ rest) := by
  unfold fractionSpelling
  split
  · next given =>
      rw [given]
      exact fraction?_append (separable.fraction _ given) fun _ first =>
        (separable.head_exponentSpelling ends first).1
  · next absent =>
      rw [absent]
      exact fraction?_of_noNumber fun isPoint =>
        (separable.head_exponentSpelling ends isPoint).2 rfl

theorem Separable.head_fractionSpelling (separable : parts.Separable)
    (ends : EndsNumber rest) {char : Char}
    (first : (parts.fractionSpelling ++
      (parts.exponentSpelling ++ rest)).head? = some char) :
    isDigitOrUnderscore char = false := by
  unfold fractionSpelling at first
  split at first
  · cases first
    rfl
  · exact (separable.head_exponentSpelling ends first).1

/-- The parts of a number are found again in its spelling, whatever the text
goes on with that belongs to no number. -/
theorem Separable.decimalParts_spelling (separable : parts.Separable)
    (ends : EndsNumber rest) : decimalParts (parts.spelling ++ rest) = parts := by
  have front := span_append separable.whole fun _ first =>
    separable.head_fractionSpelling ends first
  unfold decimalParts
  rw [spelling_eq, List.append_assoc, List.append_assoc, front.1, front.2,
    separable.fraction?_fractionSpelling ends]
  dsimp only
  rw [separable.exponent?_exponentSpelling ends]

end DecimalParts

/-! ### Numbers in a text -/

theorem startsNumber_cons {char : Char} (noPoint : char ≠ '.')
    (rest : List Char) : startsNumber (char :: rest) = char.isDigit := by
  unfold startsNumber
  split
  · next same =>
      cases same
      exact absurd rfl noPoint
  · next same =>
      cases same
      rfl
  · next same => cases same

theorem startsNumber_of_isDigit {char : Char} (rest : List Char)
    (isDigit : char.isDigit = true) : startsNumber (char :: rest) = true := by
  refine (startsNumber_cons ?_ rest).trans isDigit
  rintro rfl
  exact absurd isDigit (by decide)

theorem startsNumber_spelling {chars : List Char}
    (starts : startsNumber chars = true) :
    startsNumber (decimalParts chars).spelling = true := by
  unfold startsNumber at starts
  split at starts
  · next digit rest =>
      simp [decimalParts, DecimalParts.spelling, fraction?, startsNumber,
        isDigitOrUnderscore, starts]
  · next digit rest _ =>
      rw [DecimalParts.spelling_eq, decimalParts, List.takeWhile_cons,
        if_pos (isDigitOrUnderscore_of_isDigit starts), List.cons_append]
      exact startsNumber_of_isDigit _ starts
  · cases starts

theorem DecimalParts.Separable.noFeed {parts : DecimalParts}
    (separable : parts.Separable) : '\n' ∉ parts.spelling := by
  rw [spelling_eq, List.mem_append, List.mem_append, fractionSpelling,
    exponentSpelling]
  rintro (inWhole | inFraction | inExponent)
  · exact absurd (separable.whole _ inWhole) (by decide)
  · split at inFraction
    · next given =>
        obtain ⟨digit, more, rfl, isDigit, areDigits⟩ :=
          separable.fraction _ given
        simp at inFraction
        rcases inFraction with rfl | inMore
        · exact absurd isDigit (by decide)
        · exact absurd (areDigits _ inMore) (by decide)
    · cases inFraction
  · split at inExponent
    · next given =>
        obtain ⟨isMark, -, areDigits⟩ := separable.exponent _ _ given
        rcases List.mem_append.mp inExponent with inMark | inDigits
        · have noMark : ∀ mark ∈ exponentMarks, '\n' ∉ mark := by decide
          exact noMark _ isMark inMark
        · exact absurd (areDigits _ inDigits) (by decide)
    · cases inExponent

theorem announcedBase?_eq_some {chars : List Char} {base : Nat}
    (announced : announcedBase? chars = some base) :
    ∃ mark rest, chars = '0' :: mark :: rest ∧ isWordPart mark = true ∧
      ∀ other, announcedBase? ('0' :: mark :: other) = some base := by
  unfold announcedBase? at announced
  split at announced
  · next mark rest =>
      have letters : ['x', 'X', 'b', 'B', 'o', 'O'].all isWordPart = true := by
        decide
      refine ⟨mark, rest, rfl, List.all_eq_true.mp letters mark ?_,
        fun _ => announced⟩
      by_contra other
      simp only [List.mem_cons, List.not_mem_nil, or_false, not_or] at other
      simp [other] at announced
  · cases announced

/-- No base is announced by what stands behind a number. -/
theorem announcedBase?_append {front chars rest : List Char}
    (isPrefix : front <+: chars) (starts : startsNumber front = true)
    (absent : announcedBase? chars = none) (ends : EndsNumber rest) :
    announcedBase? (front ++ rest) = none := by
  cases announced : announcedBase? (front ++ rest) with
  | none => rfl
  | some base =>
      obtain ⟨mark, more, same, letter, anywhere⟩ :=
        announcedBase?_eq_some announced
      rcases front with _ | ⟨first, _ | ⟨second, others⟩⟩
      · cases starts
      · cases same
        rw [ends.word mark rfl] at letter
        cases letter
      · cases same
        obtain ⟨behind, rfl⟩ := isPrefix
        rw [List.cons_append, List.cons_append, anywhere] at absent
        cases absent

theorem numberLexeme_size (start : Position) (spelling : List Char)
    (read : String → Option TokenKind) :
    (numberLexeme start spelling read).size = spelling.length := by
  unfold numberLexeme
  dsimp only
  split <;> rfl

theorem numberLexeme_kind {start : Position} {spelling : List Char}
    {read : String → Option TokenKind}
    (reads : ∀ text found, read text = some found →
      (∃ value, found = .integer value text) ∨
        ∃ value, found = .float value text) :
    ∃ text, (∃ value, (numberLexeme start spelling read).kind =
        some (.integer value text)) ∨
      ∃ value, (numberLexeme start spelling read).kind =
        some (.float value text) := by
  refine ⟨String.ofList spelling, ?_⟩
  unfold numberLexeme
  dsimp only
  split
  · next known => simpa using reads _ _ known
  · exact .inl ⟨0, rfl⟩

/-- A number is read as a whole number or as one with a fraction or an
exponent. -/
theorem scanNumber_kind (start : Position) (chars : List Char) :
    ∃ text, (∃ value, (scanNumber start chars).kind =
        some (.integer value text)) ∨
      ∃ value, (scanNumber start chars).kind = some (.float value text) := by
  have whole {value : Option UInt64} {text : String} {kind : TokenKind}
      (found : value.map (.integer · text) = some kind) :
      ∃ value, kind = .integer value text := by
    obtain ⟨number, _, rfl⟩ := Option.map_eq_some_iff.mp found
    exact ⟨number, rfl⟩
  unfold scanNumber
  split
  · exact numberLexeme_kind fun _ _ found => .inl (whole found)
  · refine numberLexeme_kind fun _ _ found => ?_
    split at found
    · cases found
      exact .inr ⟨_, rfl⟩
    · exact .inl (whole found)

theorem isWordPart_of_isHexDigit {char : Char}
    (isHex : isHexDigit char = true) : isWordPart char = true := by
  simp only [isHexDigit, Bool.or_eq_true, Bool.and_eq_true,
    decide_eq_true_iff] at isHex
  rcases isHex with (digit | ⟨least, greatest⟩) | ⟨least, greatest⟩
  · simp [isWordPart, Char.isAlphanum, digit]
  · have small : char.val ≤ 'z'.val := UInt32.le_trans greatest (by decide)
    have alpha : char.isAlpha = true :=
      Bool.or_eq_true_iff.mpr
        (.inr (Bool.and_eq_true_iff.mpr
          ⟨decide_eq_true least, decide_eq_true small⟩))
    simp [isWordPart, Char.isAlphanum, alpha]
  · have large : char.val ≤ 'Z'.val := UInt32.le_trans greatest (by decide)
    have alpha : char.isAlpha = true :=
      Bool.or_eq_true_iff.mpr (.inl (decide_eq_true ⟨least, large⟩))
    simp [isWordPart, Char.isAlphanum, alpha]

theorem takeWhile_isHexDigit_append {digits rest : List Char}
    (ends : EndsNumber rest) :
    ((digits.takeWhile fun char => isHexDigit char || char = '_') ++
        rest).takeWhile (fun char => isHexDigit char || char = '_') =
      digits.takeWhile fun char => isHexDigit char || char = '_' := by
  refine (span_append (fun _ => List.mem_takeWhile_imp) fun char first => ?_).1
  refine Bool.eq_false_iff.mpr fun goesOn => ?_
  have noWord := ends.word char first
  rcases Bool.or_eq_true_iff.mp goesOn with isHex | isUnderscore
  · rw [isWordPart_of_isHexDigit isHex] at noWord
    cases noWord
  · cases of_decide_eq_true isUnderscore
    cases noWord

/-- A number takes the characters of its spelling, which is all that it is read
from, in front of anything that goes on with no number. -/
theorem scanNumber_front {chars : List Char}
    (starts : startsNumber chars = true) :
    ∃ front, front <+: chars ∧ startsNumber front = true ∧ '\n' ∉ front ∧
      ∀ start, (scanNumber start chars).size = front.length ∧
        ∀ rest, EndsNumber rest →
          scanNumber start (front ++ rest) = scanNumber start chars := by
  cases announced : announcedBase? chars with
  | none =>
      have separable := decimalParts_separable chars
      have isPrefix := spelling_isPrefix chars
      have startsFront := startsNumber_spelling starts
      refine ⟨_, isPrefix, startsFront, separable.noFeed, fun start =>
        ⟨?_, fun rest ends => ?_⟩⟩
      · unfold scanNumber
        rw [announced]
        exact numberLexeme_size _ _ _
      · have absent := announcedBase?_append isPrefix startsFront announced ends
        unfold scanNumber
        rw [announced, absent]
        dsimp only
        rw [separable.decimalParts_spelling ends]
  | some base =>
      obtain ⟨mark, digits, rfl, letter, anywhere⟩ :=
        announcedBase?_eq_some announced
      refine ⟨'0' :: mark :: digits.takeWhile fun char =>
        isHexDigit char || char = '_', ?_, ?_, ?_, fun start =>
          ⟨?_, fun rest ends => ?_⟩⟩
      · exact List.prefix_append_right_inj ['0', mark] |>.mpr
          (List.takeWhile_prefix _)
      · exact startsNumber_of_isDigit _ (by decide)
      · simp only [List.mem_cons, not_or]
        refine ⟨by decide, ?_, fun member =>
          absurd (List.mem_takeWhile_imp member) (by decide)⟩
        rintro rfl
        cases letter
      · unfold scanNumber
        rw [announced]
        exact numberLexeme_size _ _ _
      · unfold scanNumber
        rw [announced, List.cons_append, List.cons_append, anywhere]
        dsimp only
        rw [List.drop_succ_cons, List.drop_succ_cons, List.drop_zero,
          List.drop_succ_cons, List.drop_succ_cons, List.drop_zero,
          takeWhile_isHexDigit_append ends]
        rfl

end Scan

end PluginSurface
