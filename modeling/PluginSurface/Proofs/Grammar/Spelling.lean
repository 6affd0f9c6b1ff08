import PluginSurface.Proofs.Grammar.TypeTexts
import PluginSurface.Proofs.Syntax.QuotedTexts

/-!
# What texts spell

A text spells tokens if a scanner finds them in it in front of certain other
characters. A text that ends in a bracket spells its tokens in front of
anything, and one that ends in a word or in a number does so in front of what
does not go on with it. Texts behind each other spell the tokens of both if the
second one starts with what may stand behind the first.
-/

namespace PluginSurface

open Grammar

theorem TypeShape.texts_eq_map (types : List TypeShape) :
    texts types = types.map text := by
  induction types with
  | nil => rfl
  | cons type others inductionHypothesis =>
      rw [texts, inductionHypothesis, List.map_cons]

namespace Scan

/-! ## Numbers -/

theorem numberLexeme_text {start : Position} {spelling : List Char}
    {read : String → Option TokenKind} {kind : TokenKind}
    (spells : ∀ text found, read text = some found → found.text = text)
    (given : (numberLexeme start spelling read).kind = some kind) :
    kind.text = String.ofList spelling := by
  cases found : read (String.ofList spelling) with
  | none =>
      simp only [numberLexeme, found, Option.some.injEq] at given
      subst given
      rfl
  | some number =>
      simp only [numberLexeme, found, Option.some.injEq] at given
      subst given
      exact spells _ _ found

/-- A number is spelled like the front of the text that it is read from. -/
theorem scanNumber_isPrefix {start : Position} {chars : List Char}
    {kind : TokenKind} (given : (scanNumber start chars).kind = some kind) :
    kind.text.toList <+: chars := by
  unfold scanNumber at given
  split at given
  · next base announced =>
      obtain ⟨mark, digits, rfl, -, -⟩ := announcedBase?_eq_some announced
      rw [numberLexeme_text (fun _ _ => text_of_map_integer) given,
        String.toList_ofList]
      exact (List.prefix_append_right_inj ['0', mark]).mpr
        (List.takeWhile_prefix _)
  · rw [numberLexeme_text ?_ given, String.toList_ofList]
    · exact spelling_isPrefix chars
    · intro text found read
      split at read
      · cases read
        rfl
      · exact text_of_map_integer read

theorem startsNumber_append {front : List Char}
    (starts : startsNumber front = true) (rest : List Char) :
    startsNumber (front ++ rest) = true := by
  unfold startsNumber at starts
  split at starts
  · exact starts
  · exact startsNumber_of_isDigit _ starts
  · cases starts

/-- Two characters tell whether a number starts. -/
theorem startsNumber_eq (first second : Char) (rest others : List Char) :
    startsNumber (first :: second :: rest) =
      startsNumber (first :: second :: others) := by
  by_cases isPoint : first = '.'
  · subst isPoint
    rfl
  · rw [startsNumber_cons isPoint, startsNumber_cons isPoint]

/-- What starts a number starts no other lexeme. -/
theorem startsNumber_only {char : Char} {front : List Char}
    (starts : startsNumber (char :: front) = true) :
    isBlank char = false ∧ isQuote char = false ∧ char ≠ '/' ∧ char ≠ '=' := by
  by_cases isPoint : char = '.'
  · subst isPoint
    decide
  · rw [startsNumber_cons isPoint] at starts
    obtain ⟨noBlank, noQuote, noSlash⟩ := isDigit_only starts
    refine ⟨noBlank, noQuote, noSlash, ?_⟩
    rintro rfl
    cases starts

/-- A number is taken whole in front of what goes on with no number. -/
theorem munches_number {kind : TokenKind} (isNumber : kind.IsNumber)
    {rest : List Char} (ends : EndsNumber rest) :
    ∃ char front, kind.text.toList = char :: front ∧
      startsNumber (char :: front) = true ∧
        Munches char front kind rest := by
  obtain ⟨chars, starts, scanned⟩ := isNumber
  obtain ⟨spelled, isPrefix, startsSpelled, -, same⟩ := scanNumber_front starts
  have isSpelled : spelled = kind.text.toList := by
    have alike := scanNumber_isPrefix (congrArg Lexeme.kind (scanned .first))
    have long := (same .first).1
    rw [scanned .first] at long
    exact (List.prefix_of_prefix_length_le isPrefix alike
      (Nat.le_of_eq long.symm)).eq_of_length long.symm
  subst isSpelled
  cases text : kind.text.toList with
  | nil =>
      rw [text] at startsSpelled
      cases startsSpelled
  | cons char front =>
      rw [text] at startsSpelled
      obtain ⟨noBlank, noQuote, noSlash, -⟩ := startsNumber_only startsSpelled
      refine ⟨char, front, rfl, startsSpelled,
        ⟨char, front ++ rest, rfl, noBlank, fun comment => noSlash comment.1⟩,
        fun start => ?_⟩
      have found := (same start).2 rest ends
      rw [scanned start, text, List.cons_append] at found
      have isNumber := startsNumber_append startsSpelled rest
      rw [List.cons_append] at isNumber
      rw [isQuote] at noQuote
      rw [scanLexeme, noQuote, isNumber, found]
      rfl

/-! ## Texts in front of others -/

/-- What may stand behind words, numbers and closing angles. -/
structure Follows (chars : List Char) : Prop where
  ends : ReadAs.Ends chars
  number : startsNumber chars = false

theorem Follows.endsNumber {chars : List Char} (follows : Follows chars) :
    EndsNumber chars :=
  ⟨fun next front => (follows.ends next front).1, follows.number⟩

/-- Whether a text starts with what may stand behind a word. -/
def breaks (text : String) : Bool :=
  text.toList.head?.any fun char =>
    !isWordPart char && char != '>' && char != '=' && char != '.'

theorem follows_of_breaks {text : String} (breaks_ : breaks text = true)
    (chars : List Char) : Follows (text.toList ++ chars) := by
  unfold breaks at breaks_
  cases toList : text.toList with
  | nil =>
      rw [toList] at breaks_
      cases breaks_
  | cons char more =>
      rw [toList] at breaks_
      simp only [List.head?_cons, Option.any_some, Bool.and_eq_true,
        Bool.not_eq_true', bne_iff_ne, ne_eq] at breaks_
      obtain ⟨⟨⟨noWord, notAngle⟩, notEqual⟩, notPoint⟩ := breaks_
      refine ⟨TypeShape.ends_cons ⟨noWord, notAngle, notEqual⟩ _, ?_⟩
      have noDigit := isDigitOrUnderscore_of_noWord noWord
      exact (startsNumber_cons notPoint _).trans
        (Bool.or_eq_false_iff.mp noDigit).1

theorem breaks_append {first : String} (breaks_ : breaks first = true)
    (second : String) : breaks (first ++ second) = true := by
  unfold breaks at breaks_ ⊢
  rw [String.toList_append]
  cases toList : first.toList with
  | nil =>
      rw [toList] at breaks_
      cases breaks_
  | cons char more =>
      rw [toList] at breaks_
      exact breaks_

/-- A text is read as some tokens in front of certain characters. -/
def Spells (ends : List Char → Prop) (text : String) (kinds : List TokenKind) :
    Prop :=
  ∀ ⦃chars : List Char⦄ ⦃behind : List TokenKind⦄, ends chars →
    ReadAs [] chars behind → ReadAs [] (text.toList ++ chars) (kinds ++ behind)

/-- All characters. -/
def Anything : List Char → Prop :=
  fun _ => True

namespace Spells

variable {ends later : List Char → Prop} {first second : String}
  {kinds others : List TokenKind}

theorem append (spells : Spells ends first kinds)
    (further : Spells later second others)
    (meets : ∀ chars, later chars → ends (second.toList ++ chars)) :
    Spells later (first ++ second) (kinds ++ others) := by
  intro chars behind ended read
  rw [String.toList_append, List.append_assoc, List.append_assoc]
  exact spells (meets chars ended) (further ended read)

/-- Behind what is read in front of anything comes another text. -/
theorem andThen (spells : Spells Anything first kinds)
    (further : Spells later second others) :
    Spells later (first ++ second) (kinds ++ others) :=
  spells.append further fun _ _ => trivial

/-- Behind what ends in a word comes a text that starts with something else. -/
theorem before (spells : Spells Follows first kinds)
    (further : Spells later second others) (breaks_ : breaks second = true) :
    Spells later (first ++ second) (kinds ++ others) :=
  spells.append further fun chars _ => follows_of_breaks breaks_ chars

theorem anywhere (spells : Spells Anything first kinds) :
    Spells ends first kinds :=
  fun _ _ _ read => spells trivial read

theorem of_eq {text : String} (spells : Spells ends text kinds)
    (sameText : first = text) (sameKinds : others = kinds) :
    Spells ends first others :=
  sameText ▸ sameKinds ▸ spells

/-! ### Blanks and symbols -/

theorem blanks {text : String} (blank : text.toList.all isBlank = true) :
    Spells Anything text [] := by
  intro chars behind _ read
  generalize text.toList = front at blank
  induction front with
  | nil => exact read
  | cons char front inductionHypothesis =>
      obtain ⟨first, others⟩ := Bool.and_eq_true_iff.mp blank
      exact .blank first (inductionHypothesis others)

theorem space : Spells Anything " " [] :=
  blanks (by decide)

theorem feed : Spells Anything "\n" [] :=
  blanks (by decide)

theorem empty : Spells ends "" [] :=
  fun _ _ _ read => read

/-- A symbol that is the front of no other one. -/
theorem mark (mark : Symbol) {char : Char} (text : mark.text.toList = [char])
    (alone : isWhole mark = true ∧ char ≠ '/' ∧ char ≠ '.' ∧
      char.isDigit = false) :
    Spells Anything mark.text [.symbol mark] := by
  intro chars behind _ read
  rw [text]
  exact .whole mark char text alone read

/-- In front of a space a symbol starts no comment and no number, and it does
not go on. -/
theorem stops_before_space (mark : Symbol) : goesOn mark ' ' = false ∧
    mark.text.toList.take 2 ≠ ['/', '/'] ∧
      mark.text.toList.take 2 ≠ ['/', '*'] ∧
        startsNumber (mark.text.toList ++ [' ']) = false := by
  have known : ∀ mark ∈ Symbol.all, goesOn mark ' ' = false ∧
      mark.text.toList.take 2 ≠ ['/', '/'] ∧
        mark.text.toList.take 2 ≠ ['/', '*'] ∧
          startsNumber (mark.text.toList ++ [' ']) = false := by
    decide +kernel
  exact known mark mark.mem_all

/-- A symbol with a space behind it. -/
theorem symbolSpace (mark : Symbol) :
    Spells Anything (mark.text ++ " ") [.symbol mark] := by
  intro chars behind _ read
  obtain ⟨noMore, noLine, noBlock, noNumber⟩ := stops_before_space mark
  cases text : mark.text.toList with
  | nil => cases mark <;> cases text
  | cons char front =>
      rw [text] at noLine noBlock noNumber
      have munches : Munches char front (.symbol mark) (' ' :: chars ++ []) := by
        refine munches_mark text ?_ ?_ (fun next head => by
          cases head
          exact noMore)
        · rintro ⟨rfl, comment⟩
          cases front with
          | nil => simp at comment
          | cons second front =>
              simp at comment noLine noBlock
              exact comment.elim noLine noBlock
        · cases front with
          | nil => exact (startsNumber_eq _ _ _ _).trans noNumber
          | cons second front => exact (startsNumber_eq _ _ _ _).trans noNumber
      simpa [text] using ReadAs.token munches read.space

/-- A symbol with a space on both sides. -/
theorem spaced (mark : Symbol) :
    Spells Anything (" " ++ mark.text ++ " ") [.symbol mark] :=
  (space.andThen (symbolSpace mark)).of_eq (String.append_assoc ..) rfl

/-! ### Words, numbers and quoted texts -/

theorem word {word : String} (isWord : isWord word = true) :
    Spells Follows word [.ofWord word] := by
  intro chars behind follows read
  refine .word isWord (fun next front => ?_) read
  rw [List.append_nil] at front
  exact (follows.ends next front).1

theorem keyword (word : Keyword) : Spells Follows word.text [.keyword word] := by
  have spells := Spells.word (isWord_text word)
  rwa [ofWord_text] at spells

theorem number {kind : TokenKind} (isNumber : kind.IsNumber) :
    Spells Follows kind.text [kind] := by
  intro chars behind follows read
  rw [← List.append_nil chars] at follows
  obtain ⟨char, front, text, -, munches⟩ :=
    munches_number isNumber follows.endsNumber
  rw [text]
  exact .token munches read

theorem quoted (content : String) :
    Spells Anything (Print.quote content) [.string content] := by
  intro chars behind _ read
  rw [Print.toList_quote]
  exact .token (munches_quote content _) read

/-- A dot behind a word or a number and in front of a word. -/
theorem follows_dot {word : String} (isWord : isWord word = true)
    (chars : List Char) : Follows (("." ++ word).toList ++ chars) := by
  obtain ⟨first, front, text, starts⟩ := exists_isWordStart isWord
  rw [String.toList_append, text]
  exact ⟨TypeShape.ends_cons (by decide) _, (isWordStart_only starts).2.2.1⟩

theorem behindDot {word : String} (isWord : isWord word = true) :
    Spells Follows ("." ++ word) [.symbol .dot, .ofWord word] := by
  intro chars behind follows read
  have noNumber := (follows_dot isWord (chars ++ [])).number
  rw [String.toList_append] at noNumber ⊢
  rw [List.append_assoc] at noNumber ⊢
  exact .symbol .dot '.' [] rfl (by decide) (by simpa using noNumber)
    (fun next _ => goesOn_of_isWhole rfl next) (Spells.word isWord follows read)

/-- A word with a space behind it. -/
theorem leading (word : Keyword) :
    Spells Anything (word.text ++ " ") [.keyword word] :=
  (keyword word).before space (by decide)

/-- A word between spaces. -/
theorem between (word : Keyword) :
    Spells Anything (" " ++ word.text ++ " ") [.keyword word] :=
  (space.andThen (keyword word)).before space (by decide)

theorem comma : Spells Anything ", " [.comma] :=
  (mark .comma rfl (by decide)).andThen space

theorem colon : Spells Anything ": " [.symbol .colon] :=
  (mark .colon rfl (by decide)).andThen space

/-! ### Types -/

theorem type {type : TypeShape} (grammatical : type.Grammatical) :
    Spells Follows type.text type.kinds := by
  intro chars behind follows read
  rw [← List.append_nil chars] at follows
  exact @(TypeShape.reads_text type grammatical).2 0 [] chars behind
    follows.ends read

/-- Types between angles, if there are any. -/
theorem typeArguments {types : List TypeShape}
    (grammatical : TypeShape.AllGrammatical types)
    (spells : Spells Follows first kinds) :
    Spells Follows (first ++ Print.typeArguments types)
      (kinds ++ TypeShape.angled types) := by
  cases types with
  | nil => exact spells.of_eq (String.append_empty) (List.append_nil kinds)
  | cons type others =>
      have read := TypeShape.reads_texts (type :: others) grammatical
      have angled : Spells Follows (Print.typeArguments (type :: others))
          (TypeShape.angled (type :: others)) := by
        intro chars behind follows further
        rw [← List.append_nil chars] at follows
        have reads := TypeShape.readsText_angled (List.cons_ne_nil type others)
          (fun type member => (read type member).2)
          (fun type member => (read type member).1) 0 follows.ends further
        rw [TypeShape.texts_eq_map] at reads
        simpa [Print.typeArguments, Print.joined, TypeShape.angled] using reads
      exact spells.before angled (breaks_append (breaks_append (by decide) _) _)

/-! ### Lists -/

section

variable {Part : Type} {text : Part → String}
  {partKinds : Part → List TokenKind} {parts : List Part}

/-- Parts between commas. -/
theorem joined
    (each : ∀ part ∈ parts, Spells Follows (text part) (partKinds part)) :
    Spells Follows (Print.joined (parts.map text))
      (joinedKinds (parts.map partKinds)) := by
  induction parts with
  | nil => exact empty
  | cons part others inductionHypothesis =>
      obtain ⟨first, later⟩ := List.forall_mem_cons.mp each
      cases others with
      | nil =>
          exact first.of_eq (by simp [Print.joined]) rfl
      | cons next others =>
          have whole := (first.before comma (by decide)).andThen
            (inductionHypothesis later)
          exact whole.of_eq (by simp [Print.joined]) (by simp [joinedKinds])

/-- Parts between commas, in parentheses behind a text. -/
theorem parenthesized (spells : Spells Follows first kinds)
    (each : ∀ part ∈ parts, Spells Follows (text part) (partKinds part)) :
    Spells Anything (first ++ "(" ++ Print.joined (parts.map text) ++ ")")
      (kinds ++ .symbol .openParen :: joinedKinds (parts.map partKinds) ++
        [.symbol .closeParen]) := by
  have opened := spells.before (mark .openParen rfl (by decide)) (by decide)
  have closed := (opened.andThen (joined each)).before
    (mark .closeParen rfl (by decide)) (by decide)
  exact closed.of_eq rfl (by simp)

/-- Parts between commas, in braces with a space on both sides. -/
theorem listed
    (each : ∀ part ∈ parts, Spells Follows (text part) (partKinds part)) :
    Spells Anything ("\x7b " ++ Print.joined (parts.map text) ++ " \x7d")
      (.symbol .openBrace :: joinedKinds (parts.map partKinds) ++
        [.symbol .closeBrace]) := by
  have closed := (((mark .openBrace rfl (by decide)).andThen space).andThen
    (joined each)).before
      (space.andThen (mark .closeBrace rfl (by decide))) (by decide)
  exact closed.of_eq rfl (by simp)

end

end Spells

end Scan

end PluginSurface
