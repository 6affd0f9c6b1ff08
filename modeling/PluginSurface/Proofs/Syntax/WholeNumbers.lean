import Mathlib.Data.List.Forall2
import Mathlib.Data.List.Induction
import Mathlib.Data.Nat.Digits.Defs
import Mathlib.Tactic.Ring
import PluginSurface.Proofs.Syntax.Munching

/-!
# Whole numbers denote their exact value

A whole number is written with decimal digits, or with the mark of a base and
hexadecimal digits behind it, and may have underscores among its digits. It is
read as the number that its digits denote in its base, if there are digits, all
of them belong to the base and a word of 64 bits holds the number. In front of a
semicolon it is one token in any case.
-/

namespace PluginSurface

namespace Scan

/-! ## Digits and numbers -/

/-- The digits in the order of their values, with small and with capital
letters. -/
def digitRows : List (List Char) :=
  ["0123456789abcdef".toList, "0123456789ABCDEF".toList]

/-- A digit stands for its place among the digits. -/
def StandsFor (digit : Char) (value : Nat) : Prop :=
  ∃ row ∈ digitRows, row[value]? = some digit

instance (digit : Char) (value : Nat) : Decidable (StandsFor digit value) :=
  inferInstanceAs (Decidable (∃ row ∈ digitRows, row[value]? = some digit))

theorem exists_standsFor_iff {digit : Char} :
    (∃ value, StandsFor digit value) ↔ ∃ row ∈ digitRows, digit ∈ row := by
  constructor
  · rintro ⟨value, row, inRows, found⟩
    exact ⟨row, inRows, List.mem_of_getElem? found⟩
  · rintro ⟨row, inRows, member⟩
    obtain ⟨value, found⟩ := List.mem_iff_getElem?.mp member
    exact ⟨value, row, inRows, found⟩

/-- Digits of a base, at least one, denote the number whose digits in the base
are their values, the last digit being the lowest. -/
def Denotes (base : Nat) (digits : List Char) (number : Nat) : Prop :=
  digits ≠ [] ∧ ∃ values, List.Forall₂ StandsFor digits values ∧
    (∀ value ∈ values, value < base) ∧
    number = Nat.ofDigits base values.reverse

theorem standsFor_spec {digit : Char} {value : Nat}
    (stands : StandsFor digit value) :
    digitValue digit = value ∧ isHexDigit digit = true ∧ digit ≠ '_' ∧
      (value < 10 → digit.isDigit = true) := by
  -- The places are few enough to be tried one by one, the characters are not.
  have all : ∀ row ∈ digitRows, ∀ place : Fin row.length,
      digitValue row[place] = place ∧ isHexDigit row[place] = true ∧
        row[place] ≠ '_' ∧ (place.val < 10 → row[place].isDigit = true) := by
    decide
  obtain ⟨row, inRows, found⟩ := stands
  obtain ⟨inside, rfl⟩ := List.getElem?_eq_some_iff.mp found
  exact all row inRows ⟨value, inside⟩

/-- The number that digits denote is computed from the first digit on. -/
theorem digitsValue_eq_ofDigits (base : Nat) (digits : List Char) :
    digitsValue base digits =
      Nat.ofDigits base (digits.map digitValue).reverse := by
  induction digits using List.reverseRecOn with
  | nil => rfl
  | append_singleton digits digit inductionHypothesis =>
      rw [digitsValue, List.foldl_append, List.map_append, List.reverse_append]
      change digitsValue base digits * base + digitValue digit = _
      rw [inductionHypothesis]
      simp [Nat.ofDigits_cons]
      ring

theorem forall₂_standsFor {digits : List Char} {values : List Nat}
    (stand : List.Forall₂ StandsFor digits values) :
    values = digits.map digitValue := by
  induction stand with
  | nil => rfl
  | cons stands _ inductionHypothesis =>
      rw [List.map_cons, ← inductionHypothesis, (standsFor_spec stands).1]

theorem denotes_iff {base number : Nat} {digits : List Char}
    (areDigits : ∀ digit ∈ digits, ∃ value, StandsFor digit value) :
    Denotes base digits number ↔
      digits ≠ [] ∧ (∀ digit ∈ digits, digitValue digit < base) ∧
        number = digitsValue base digits := by
  constructor
  · rintro ⟨nonempty, values, stand, belong, denoted⟩
    rw [forall₂_standsFor stand] at belong denoted
    rw [← digitsValue_eq_ofDigits] at denoted
    exact ⟨nonempty, fun digit member =>
      belong _ (List.mem_map_of_mem member), denoted⟩
  · rintro ⟨nonempty, belong, denoted⟩
    refine ⟨nonempty, digits.map digitValue, ?_, ?_, ?_⟩
    · rw [List.forall₂_map_right_iff, List.forall₂_same]
      intro digit member
      obtain ⟨value, stands⟩ := areDigits digit member
      rw [(standsFor_spec stands).1]
      exact stands
    · exact List.forall_mem_map.mpr belong
    · rw [denoted, digitsValue_eq_ofDigits]

/-- A word is read from digits if it is the number that they denote. -/
theorem wordValue?_eq_some_iff {base : Nat} {digits : List Char}
    (areDigits : ∀ digit ∈ digits, ∃ value, StandsFor digit value)
    {word : UInt64} :
    wordValue? base digits = some word ↔ Denotes base digits word.toNat := by
  rw [denotes_iff areDigits]
  unfold wordValue?
  dsimp only
  split
  · next misfit =>
      refine iff_of_false nofun ?_
      rintro ⟨nonempty, belong, denoted⟩
      have small := word.toNat_lt
      simp [nonempty] at misfit
      rcases misfit with ⟨digit, member, large⟩ | large
      · have fits := belong digit member
        omega
      · omega
  · next fits =>
      simp only [Bool.not_eq_true, Bool.or_eq_false_iff, List.isEmpty_eq_false_iff,
        List.any_eq_false, decide_eq_true_eq, decide_eq_false_iff_not,
        Nat.not_le] at fits
      obtain ⟨⟨nonempty, belong⟩, small⟩ := fits
      rw [Option.some.injEq, ← UInt64.toNat_inj, UInt64.toNat_ofNat',
        Nat.mod_eq_of_lt small]
      constructor
      · exact fun denoted => ⟨nonempty, belong, denoted.symm⟩
      · exact fun denoted => denoted.2.2.symm

/-! ## Written numbers -/

/-- The marks behind a zero that announce a base. -/
def baseMarks : List (Char × Nat) :=
  [('x', 16), ('X', 16), ('b', 2), ('B', 2), ('o', 8), ('O', 8)]

/-- Some characters are a whole number as it may be written, in a base and with
digits that have underscores among them. Behind the mark of a base there may be
hexadecimal digits of any base, or none. -/
inductive WrittenNumber : List Char → Nat → List Char → Prop where
  | decimal {first : Char} {more : List Char}
      (starts : ∃ value < 10, StandsFor first value)
      (goesOn : ∀ char ∈ more,
        (∃ value < 10, StandsFor char value) ∨ char = '_') :
      WrittenNumber (first :: more) 10 (first :: more)
  | announced {mark : Char} {base : Nat} {digits : List Char}
      (announces : (mark, base) ∈ baseMarks)
      (goesOn : ∀ char ∈ digits, (∃ value, StandsFor char value) ∨ char = '_') :
      WrittenNumber ('0' :: mark :: digits) base digits

theorem isDigit_of_standsFor {char : Char}
    (stands : ∃ value < 10, StandsFor char value) : char.isDigit = true := by
  obtain ⟨value, small, stands⟩ := stands
  exact (standsFor_spec stands).2.2.2 small

theorem announcedBase?_of_mark {mark : Char} {base : Nat}
    (announces : (mark, base) ∈ baseMarks) (rest : List Char) :
    announcedBase? ('0' :: mark :: rest) = some base := by
  simp only [baseMarks, List.mem_cons, Prod.mk.injEq, List.not_mem_nil,
    or_false] at announces
  rcases announces with ⟨rfl, rfl⟩ | ⟨rfl, rfl⟩ | ⟨rfl, rfl⟩ | ⟨rfl, rfl⟩ |
    ⟨rfl, rfl⟩ | ⟨rfl, rfl⟩ <;> rfl

/-- Neither a digit nor an underscore nor a semicolon announces a base. -/
theorem announcedBase?_eq_none {first second : Char}
    (plain : isDigitOrUnderscore second = true ∨ second = ';')
    (rest : List Char) : announcedBase? (first :: second :: rest) = none := by
  have others : ∀ letter ∈ baseMarks.map Prod.fst, second ≠ letter := by
    have apart : (baseMarks.map Prod.fst).all fun letter =>
        !isDigitOrUnderscore letter && letter != ';' := by decide
    rintro letter inMarks rfl
    have neither := List.all_eq_true.mp apart second inMarks
    rcases plain with isPart | rfl
    · rw [isPart] at neither
      cases neither
    · simp at neither
  by_cases isZero : first = '0'
  · subst isZero
    simp [announcedBase?, baseMarks] at others ⊢
    simp [others]
  · simp [announcedBase?, isZero]

/-- Digits and underscores in front of a semicolon are a number without a
fraction and without an exponent. -/
theorem decimalParts_written {spelling : List Char}
    (inside : ∀ char ∈ spelling, isDigitOrUnderscore char = true)
    (rest : List Char) :
    decimalParts (spelling ++ ';' :: rest) = ⟨spelling, none, none⟩ := by
  have stops : ∀ char, (';' :: rest).head? = some char →
      isDigitOrUnderscore char = false := by
    rintro _ ⟨⟩
    decide
  obtain ⟨taken, left⟩ := span_append inside stops
  have noFraction : fraction? (';' :: rest) = (none, ';' :: rest) :=
    fraction?_of_noNumber nofun
  have noExponent : exponent? (';' :: rest) = none := by
    simp [exponent?]
  unfold decimalParts
  rw [taken, left, noFraction]
  simp only [noExponent]

theorem announcedBase?_decimal {first : Char} {more : List Char}
    (inside : ∀ char ∈ more, isDigitOrUnderscore char = true)
    (rest : List Char) :
    announcedBase? (first :: (more ++ ';' :: rest)) = none := by
  cases more with
  | nil => exact announcedBase?_eq_none (.inr rfl) rest
  | cons second more =>
      exact announcedBase?_eq_none (.inl (inside second List.mem_cons_self)) _

/-- In front of a semicolon a number takes its whole spelling, and its digits
alone tell its value. -/
theorem scanNumber_written {spelling digits : List Char} {base : Nat}
    (written : WrittenNumber spelling base digits) (start : Position)
    (rest : List Char) :
    scanNumber start (spelling ++ ';' :: rest) =
      numberLexeme start spelling fun text =>
        (wordValue? base (withoutUnderscores digits)).map (.integer · text) := by
  cases written with
  | @decimal first more starts goesOn =>
      have inMore : ∀ char ∈ more, isDigitOrUnderscore char = true := by
        intro char member
        rcases goesOn char member with isDigit | isUnderscore
        · exact isDigitOrUnderscore_of_isDigit (isDigit_of_standsFor isDigit)
        · simp [isDigitOrUnderscore, isUnderscore]
      have inside : ∀ char ∈ first :: more, isDigitOrUnderscore char = true :=
        List.forall_mem_cons.mpr ⟨isDigitOrUnderscore_of_isDigit
          (isDigit_of_standsFor starts), inMore⟩
      have parts := decimalParts_written inside rest
      unfold scanNumber
      rw [parts, List.cons_append, announcedBase?_decimal inMore]
      simp [DecimalParts.spelling]
  | @announced mark base digits announces goesOn =>
      have inside : ∀ char ∈ digits,
          (isHexDigit char || decide (char = '_')) = true := by
        intro char member
        rcases goesOn char member with ⟨value, stands⟩ | isUnderscore
        · simp [(standsFor_spec stands).2.1]
        · simp [isUnderscore]
      have stops : ∀ char, (';' :: rest).head? = some char →
          (isHexDigit char || decide (char = '_')) = false := by
        rintro _ ⟨⟩
        decide
      have taken := (span_append inside stops).1
      unfold scanNumber
      simp only [List.cons_append, announcedBase?_of_mark announces]
      simp [taken]

theorem WrittenNumber.starts {spelling digits : List Char} {base : Nat}
    (written : WrittenNumber spelling base digits) :
    ∃ first more, spelling = first :: more ∧ first.isDigit = true := by
  cases written with
  | decimal starts goesOn => exact ⟨_, _, rfl, isDigit_of_standsFor starts⟩
  | announced announces goesOn => exact ⟨_, _, rfl, by decide⟩

/-- The digits that are left without underscores all have a value. -/
theorem WrittenNumber.areDigits {spelling digits : List Char} {base : Nat}
    (written : WrittenNumber spelling base digits) :
    ∀ digit ∈ withoutUnderscores digits, ∃ value, StandsFor digit value := by
  intro digit member
  obtain ⟨inDigits, notUnderscore⟩ := List.mem_filter.mp member
  have notUnderscore := of_decide_eq_true notUnderscore
  cases written with
  | decimal starts goesOn =>
      rcases List.mem_cons.mp inDigits with rfl | inMore
      · obtain ⟨value, -, stands⟩ := starts
        exact ⟨value, stands⟩
      · obtain ⟨value, -, stands⟩ :=
          (goesOn digit inMore).resolve_right notUnderscore
        exact ⟨value, stands⟩
  | announced announces goesOn =>
      exact (goesOn digit inDigits).resolve_right notUnderscore

theorem WrittenNumber.noFeed {spelling digits : List Char} {base : Nat}
    (written : WrittenNumber spelling base digits) : '\n' ∉ spelling := by
  have noDigit : ∀ value, ¬StandsFor '\n' value := fun value stands => by
    exact absurd (standsFor_spec stands).2.1 (by decide)
  intro member
  cases written with
  | decimal starts goesOn =>
      rcases List.mem_cons.mp member with rfl | inMore
      · exact noDigit _ starts.choose_spec.2
      · rcases goesOn _ inMore with ⟨value, -, stands⟩ | isUnderscore
        · exact noDigit value stands
        · cases isUnderscore
  | announced announces goesOn =>
      rcases List.mem_cons.mp member with isZero | inMore
      · cases isZero
      rcases List.mem_cons.mp inMore with rfl | inDigits
      · revert announces
        simp [baseMarks]
      · rcases goesOn _ inDigits with ⟨value, stands⟩ | isUnderscore
        · exact noDigit value stands
        · cases isUnderscore

/-! ## Texts -/

section

variable {spelling digits : List Char} {base : Nat}

/-- The faults of a number whose value is not known. -/
def numberFaults (start : Position) (spelling : List Char) :
    Option UInt64 → List (SyntaxFault × Span)
  | some _ => []
  | none => [(.invalidNumber (String.ofList spelling),
      spanTo start (start.advance spelling))]

theorem numberLexeme_word (start : Position) (spelling : List Char)
    (value? : Option UInt64) :
    (numberLexeme start spelling fun text => value?.map (.integer · text)) =
      ⟨spelling.length,
        some (.integer (value?.getD 0) (String.ofList spelling)),
        numberFaults start spelling value?⟩ := by
  cases value? <;> rfl

/-- A number and the semicolon behind it are scanned from the start of a text. -/
theorem scanFrom_written (written : WrittenNumber spelling base digits)
    (source : SourceText) (bound : Nat) (rest : List Char) :
    let value? := wordValue? base (withoutUnderscores digits)
    scanFrom source (bound + 2) .first (spelling ++ ';' :: rest) .empty =
      (scanFrom source bound ⟨1, spelling.length + 2⟩ rest
        (report source .empty (numberFaults .first spelling value?))).prepend
          [⟨.integer (value?.getD 0) (String.ofList spelling),
              ⟨.first, ⟨1, spelling.length⟩⟩⟩,
            ⟨.symbol .semicolon, .point ⟨1, spelling.length + 1⟩⟩] := by
  intro value?
  have oneLine := written.noFeed
  have reads := scanNumber_written written .first rest
  rw [numberLexeme_word] at reads
  obtain ⟨first, more, rfl, isDigit⟩ := written.starts
  obtain ⟨notBlank, notQuote, notSlash⟩ := isDigit_only isDigit
  have starts : StartsLexeme (first :: (more ++ ';' :: rest)) :=
    ⟨first, _, rfl, notBlank, fun comment => notSlash comment.1⟩
  have isNumber : scanLexeme .first first (more ++ ';' :: rest) =
      scanNumber .first (first :: more ++ ';' :: rest) := by
    rw [isQuote] at notQuote
    rw [scanLexeme, notQuote, startsNumber_of_isDigit _ isDigit]
    rfl
  have room : (report source .empty
      (numberFaults .first (first :: more) value?)).isFull = false := by
    cases value? <;> rfl
  have semicolon : Munches ';' [] (.symbol .semicolon) rest :=
    munches_symbol rfl (by decide) (by simp [startsNumber])
      fun next _ => goesOn_of_isWhole (by decide) next
  have behind : Position.first.advance (first :: more) =
      ⟨1, (first :: more).length + 1⟩ := by
    rw [Position.advance_of_no_feed _ oneLine, Nat.add_comm]
    rfl
  have afterNumber := scanFrom_lexeme starts (isNumber.trans reads) source
    (bound + 1) rfl room
  have afterSemicolon := ReadAs.scanFrom_munches semicolon source bound
    (Position.first.advance (first :: more)) room
  rw [List.nil_append] at afterSemicolon
  rw [afterSemicolon, Result.prepend_prepend, spanTo_first oneLine
    (List.cons_ne_nil _ _), behind] at afterNumber
  rw [List.cons_append, afterNumber]
  rfl

end

end Scan

open Scan in
/-- Whole numbers denote their exact value. Of a written number in front of a
semicolon the whole spelling is one token. If its digits denote a number that a
word of 64 bits holds, the token has this value and nothing is wrong with it.
Otherwise the value is zero, and the number is reported as invalid once. -/
theorem SourceText.scan_wholeNumber (name : String)
    {spelling digits : List Char} {base : Nat}
    (written : WrittenNumber spelling base digits) (rest : String) :
    let text := String.ofList spelling
    let source : SourceText := ⟨name, text ++ ";" ++ rest⟩
    let size := spelling.length
    let span : Span := ⟨.first, ⟨1, size⟩⟩
    let error := (SyntaxFault.invalidNumber text).diagnostic source span
    let outcome (value : UInt64) (found : Diagnostics) : Scan.Result :=
      (scanFrom source (size + rest.length) ⟨1, size + 2⟩ rest.toList
        found).prepend
          [⟨.integer value text, span⟩,
            ⟨.symbol .semicolon, .point ⟨1, size + 1⟩⟩]
    (∀ number < 2 ^ 64, Denotes base (withoutUnderscores digits) number →
        source.scan = outcome (.ofNat number) .empty) ∧
      ((∀ number < 2 ^ 64, ¬Denotes base (withoutUnderscores digits) number) →
        error.code = .invalidNumber ∧
          source.scan = outcome 0 (Diagnostics.empty.push error)) ∧
      (rest = "" → ∀ value found, outcome value found =
        ⟨[⟨.integer value text, span⟩,
          ⟨.symbol .semicolon, .point ⟨1, size + 1⟩⟩,
          ⟨.endOfFile, .point ⟨1, size + 2⟩⟩], found⟩) := by
  intro text source size span error outcome
  let value? := wordValue? base (withoutUnderscores digits)
  have scanned : source.scan = outcome (value?.getD 0)
      (report source .empty (numberFaults .first spelling value?)) := by
    have chars : source.text.toList = spelling ++ ';' :: rest.toList := by
      simp [source, text]
    have length : source.text.toList.length = size + rest.length + 1 := by
      simp [chars, size, Nat.add_assoc, String.length_toList]
    unfold SourceText.scan
    dsimp only
    rw [length, chars]
    exact scanFrom_written written source (size + rest.length) rest.toList
  refine ⟨fun number small denoted => ?_, fun unknown => ⟨rfl, ?_⟩, ?_⟩
  · have found : value? = some (.ofNat number) := by
      rw [wordValue?_eq_some_iff written.areDigits, UInt64.toNat_ofNat',
        Nat.mod_eq_of_lt small]
      exact denoted
    rw [scanned, found]
    rfl
  · have notFound : value? = none := by
      refine Option.eq_none_iff_forall_ne_some.mpr fun word found => ?_
      rw [wordValue?_eq_some_iff written.areDigits] at found
      exact unknown _ word.toNat_lt found
    have isSpan : spanTo .first (Position.first.advance spelling) = span :=
      spanTo_first written.noFeed (by
        obtain ⟨_, _, rfl, -⟩ := written.starts
        exact List.cons_ne_nil _ _)
    rw [scanned, notFound, numberFaults, isSpan]
    rfl
  · rintro rfl value found
    exact congrArg (Result.prepend · _) (scanFrom_nil _ _ _ _)

/-- The largest word, with a zero in front and underscores in between. -/
theorem SourceText.scan_largestWord :
    let digits := "_0FFFF_ffff_FFFF_ffff".toList
    Scan.WrittenNumber ('0' :: 'x' :: digits) 16 digits ∧
      Scan.Denotes 16 (Scan.withoutUnderscores digits) 18446744073709551615 ∧
      SourceText.scan ⟨"a.ts", "0x_0FFFF_ffff_FFFF_ffff;"⟩ =
        ⟨[⟨.integer 18446744073709551615 "0x_0FFFF_ffff_FFFF_ffff",
            ⟨⟨1, 1⟩, ⟨1, 23⟩⟩⟩,
          ⟨.symbol .semicolon, .point ⟨1, 24⟩⟩,
          ⟨.endOfFile, .point ⟨1, 25⟩⟩], .empty⟩ := by
  intro digits
  have known : digits.all fun char =>
      decide ((∃ row ∈ Scan.digitRows, char ∈ row) ∨ char = '_') := by
    decide
  have written : Scan.WrittenNumber ('0' :: 'x' :: digits) 16 digits := by
    refine .announced (by decide) fun char member => ?_
    have isKnown := of_decide_eq_true (List.all_eq_true.mp known char member)
    exact isKnown.imp_left Scan.exists_standsFor_iff.mpr
  have denoted : Scan.Denotes 16 (Scan.withoutUnderscores digits)
      18446744073709551615 := by
    have belong : (Scan.withoutUnderscores digits).all fun digit =>
        Scan.digitValue digit < 16 := by
      decide
    rw [Scan.denotes_iff written.areDigits]
    exact ⟨by decide, fun digit member =>
      of_decide_eq_true (List.all_eq_true.mp belong digit member), by decide⟩
  refine ⟨written, denoted, ?_⟩
  have scanned := SourceText.scan_wholeNumber "a.ts" written ""
  exact (scanned.1 _ (by decide) denoted).trans (scanned.2.2 rfl _ _)

end PluginSurface
