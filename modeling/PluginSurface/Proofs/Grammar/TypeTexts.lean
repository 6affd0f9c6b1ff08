import PluginSurface.Proofs.Grammar.Cursor
import PluginSurface.Proofs.Grammar.PrintedTypes
import PluginSurface.Proofs.Syntax.Lexing
import PluginSurface.Proofs.Syntax.Munching

/-!
# Texts of types

The text of a type is divided into the tokens that the type is made of. Angles
that close several lists of arguments stand together and are taken in threes, so
the tokens of a part depend on how many angles stand behind it.
-/

namespace PluginSurface

open Grammar Scan

theorem Scan.exists_isWordStart {word : String} (isWord : isWord word = true) :
    ∃ first front, word.toList = first :: front ∧ isWordStart first = true := by
  rw [Scan.isWord] at isWord
  split at isWord
  · cases isWord
  · next first front text =>
      exact ⟨first, front, text, (Bool.and_eq_true_iff.mp isWord).1⟩

theorem exists_intercalate (separator first : List Char)
    (others : List (List Char)) :
    ∃ more, separator.intercalate (first :: others) = first ++ more := by
  cases others with
  | nil => exact ⟨[], by simp⟩
  | cons next others => exact ⟨_, by simp [List.intercalate_cons_cons]; rfl⟩

namespace Scan.ReadAs

variable {chars rest : List Char} {kinds : List TokenKind}

/-- A symbol that is the front of no other one is taken in front of anything. -/
theorem whole (mark : Symbol) (char : Char)
    (text : mark.text.toList = [char])
    (alone : isWhole mark = true ∧ char ≠ '/' ∧ char ≠ '.' ∧
      char.isDigit = false)
    (further : ReadAs rest chars kinds) :
    ReadAs rest (char :: chars) (.symbol mark :: kinds) := by
  obtain ⟨whole, notSlash, notDot, notDigit⟩ := alone
  have noNumber := (startsNumber_cons notDot (chars ++ rest)).trans notDigit
  exact symbol mark char [] text notSlash noNumber
    (fun next _ => goesOn_of_isWhole whole next) further

/-- What may stand behind closing angles and behind words. -/
def Ends (chars : List Char) : Prop :=
  ∀ next, chars.head? = some next →
    isWordPart next = false ∧ next ≠ '>' ∧ next ≠ '='

theorem angles (count : Nat) (ends : Ends (chars ++ rest))
    (further : ReadAs rest chars kinds) :
    ReadAs rest (List.replicate count '>' ++ chars)
      (TypeShape.angles count ++ kinds) := by
  induction count using TypeShape.angles.induct with
  | case1 => exact further
  | case2 =>
      exact symbol .greater '>' [] rfl (by decide) rfl (fun next front => by
        simp [goesOn_greater, ends next front]) further
  | case3 =>
      exact symbol .doubleGreater '>' ['>'] rfl (by decide) rfl
        (fun next front => by simp [goesOn_doubleGreater, ends next front]) further
  | case4 count inductionHypothesis =>
      exact symbol .tripleGreater '>' ['>', '>'] rfl (by decide) rfl
        (fun next _ => goesOn_of_isWhole rfl next) inductionHypothesis

theorem dotted {segments : List String}
    (words : ∀ segment ∈ segments, isWord segment = true)
    (ends : ∀ next, (chars ++ rest).head? = some next → isWordPart next = false)
    (further : ReadAs rest chars kinds) :
    ReadAs rest ((String.intercalate "." segments).toList ++ chars)
      (TypeShape.dotted segments ++ kinds) := by
  rw [String.toList_intercalate]
  induction segments with
  | nil => exact further
  | cons segment others inductionHypothesis =>
      obtain ⟨isWord, words⟩ := List.forall_mem_cons.mp words
      cases others with
      | nil =>
          rw [List.map_singleton, List.intercalate_singleton]
          exact word isWord ends further
      | cons next others =>
          have behind := inductionHypothesis words
          obtain ⟨first, front, text, starts⟩ :=
            exists_isWordStart (words next List.mem_cons_self)
          rw [List.map_cons, List.map_cons, List.intercalate_cons_cons,
            List.append_assoc, List.append_assoc, ← List.map_cons]
          refine word isWord (fun char front => ?_) (symbol .dot '.' [] rfl
            (by decide) ?_ (fun char _ => goesOn_of_isWhole rfl char) behind)
          · cases front
            rfl
          · obtain ⟨more, whole⟩ := exists_intercalate ".".toList next.toList
              (others.map String.toList)
            rw [List.map_cons, whole, text]
            exact (isWordStart_only starts).2.2.1

end Scan.ReadAs

/-! ## Types -/

namespace TypeShape

/-- The text of a type, with closing angles behind it, is read as its tokens in
front of what ends it. -/
def ReadsText (type : TypeShape) : Prop :=
  ∀ ⦃count : Nat⦄ ⦃rest chars : List Char⦄ ⦃kinds : List TokenKind⦄,
    ReadAs.Ends (chars ++ rest) → ReadAs rest chars kinds →
      ReadAs rest (type.text.toList ++ (List.replicate count '>' ++ chars))
        (type.kindsBefore count ++ kinds)

/-- The text of a type starts with a word or a parenthesis. -/
def StartsText (type : TypeShape) : Prop :=
  ∃ first, type.text.toList.head? = some first ∧
    (isWordStart first = true ∨ first = '(')

theorem goesOn_less_of_starts {char : Char}
    (starts : isWordStart char = true ∨ char = '(') :
    goesOn .less char = false := by
  rw [goesOn_less]
  refine Bool.eq_false_iff.mpr fun goes => ?_
  rw [Bool.or_eq_true, beq_iff_eq, beq_iff_eq] at goes
  rcases goes with rfl | rfl <;> exact absurd starts (by decide)

theorem startsText_named {segments : List String} (arguments : List TypeShape)
    (some_segment : segments ≠ [])
    (words : ∀ segment ∈ segments, isTypeName segment = true) :
    (named segments arguments).StartsText := by
  obtain ⟨segment, others, rfl⟩ := List.exists_cons_of_ne_nil some_segment
  obtain ⟨first, front, text, starts⟩ :=
    exists_isWordStart (isWord_of_isTypeName (words segment List.mem_cons_self))
  refine ⟨first, ?_, .inl starts⟩
  cases arguments <;> simp [TypeShape.text, text]

theorem StartsText.append {type longer : TypeShape} {more : String}
    (starts : type.StartsText) (text : longer.text = type.text ++ more) :
    longer.StartsText := by
  obtain ⟨first, same, starts⟩ := starts
  exact ⟨first, by simp [text, same], starts⟩

theorem StartsText.array {element : TypeShape} (starts : element.StartsText) :
    (array element).StartsText := by
  cases nullable : element.isNullable with
  | true => exact ⟨'(', by simp [TypeShape.text, nullable], .inr rfl⟩
  | false => exact starts.append (by rw [TypeShape.text, nullable]; rfl)

theorem StartsText.nullable {inner : TypeShape} (starts : inner.StartsText) :
    (nullable inner).StartsText :=
  starts.append (by rw [TypeShape.text])

theorem ends_cons {char : Char} (ends : isWordPart char = false ∧ char ≠ '>' ∧
    char ≠ '=') (chars : List Char) : ReadAs.Ends (char :: chars) := by
  rintro _ ⟨⟩
  exact ends

theorem isWordPart_ends {count : Nat} {chars : List Char}
    (ends : ReadAs.Ends chars) {next : Char}
    (front : (List.replicate count '>' ++ chars).head? = some next) :
    isWordPart next = false := by
  cases count with
  | zero => exact (ends next front).1
  | succ count =>
      cases front
      rfl

theorem readsText_bareName {segments : List String}
    (words : ∀ segment ∈ segments, isTypeName segment = true) :
    (named segments []).ReadsText := by
  intro count rest chars kinds ends further
  have text : (named segments []).text.toList =
      (String.intercalate "." segments).toList := by
    simp [TypeShape.text]
  rw [text, kindsBefore, List.append_assoc]
  refine .dotted (fun segment member => isWord_of_isTypeName (words segment member))
    (fun next front => ?_) (.angles count ends further)
  rw [List.append_assoc] at front
  exact isWordPart_ends ends front

/-- Types with commas between them and closing angles behind them. -/
theorem readsText_arguments {types : List TypeShape}
    (read : ∀ type ∈ types, type.ReadsText) {count : Nat}
    {rest chars : List Char} {kinds : List TokenKind}
    (ends : ReadAs.Ends (chars ++ rest)) (further : ReadAs rest chars kinds) :
    ReadAs rest ((String.intercalate ", " (texts types)).toList ++
        (List.replicate (count + 1) '>' ++ chars))
      (argumentKinds types count ++ kinds) := by
  rw [String.toList_intercalate]
  induction types with
  | nil => exact .angles (count + 1) ends further
  | cons type others inductionHypothesis =>
      obtain ⟨first, read⟩ := List.forall_mem_cons.mp read
      cases others with
      | nil =>
          rw [argumentKinds, texts, texts, List.map_singleton,
            List.intercalate_singleton]
          exact first ends further
      | cons next others =>
          have comma := ReadAs.whole .comma ',' rfl (by decide)
            (inductionHypothesis read).space
          have whole := @first 0 _ _ _ (ends_cons (by decide) _) comma
          rw [argumentKinds, texts, texts, List.map_cons, List.map_cons,
            List.intercalate_cons_cons]
          · simpa [texts, TokenKind.comma] using whole
          · simp

/-- Types between angles. -/
theorem readsText_angled {types : List TypeShape} (some_type : types ≠ [])
    (read : ∀ type ∈ types, type.ReadsText)
    (starts : ∀ type ∈ types, type.StartsText) (count : Nat)
    {rest chars : List Char} {kinds : List TokenKind}
    (ends : ReadAs.Ends (chars ++ rest)) (further : ReadAs rest chars kinds) :
    ReadAs rest ('<' :: ((String.intercalate ", " (texts types)).toList ++
        (List.replicate (count + 1) '>' ++ chars)))
      (.symbol .less :: (argumentKinds types count ++ kinds)) := by
  have goesOn (next : Char)
      (front : (((String.intercalate ", " (texts types)).toList ++
        (List.replicate (count + 1) '>' ++ chars)) ++ rest).head? =
          some next) : Scan.goesOn .less next = false := by
    obtain ⟨first, others, rfl⟩ := List.exists_cons_of_ne_nil some_type
    obtain ⟨start, text, starts⟩ := starts first List.mem_cons_self
    obtain ⟨more, whole⟩ := exists_intercalate ", ".toList first.text.toList
      ((texts others).map String.toList)
    rw [String.toList_intercalate, texts, List.map_cons, whole] at front
    simp only [List.append_assoc, List.head?_append, text, Option.some_or]
      at front
    cases front
    exact goesOn_less_of_starts starts
  exact .symbol .less '<' [] rfl (by decide) rfl goesOn
    (readsText_arguments read ends further)

theorem readsText_named {segments : List String} {arguments : List TypeShape}
    (words : ∀ segment ∈ segments, isTypeName segment = true)
    (some_argument : arguments ≠ [])
    (read : ∀ argument ∈ arguments, argument.ReadsText)
    (starts : ∀ argument ∈ arguments, argument.StartsText) :
    (named segments arguments).ReadsText := by
  intro count rest chars kinds ends further
  have angled := readsText_angled some_argument read starts count ends further
  have whole := ReadAs.dotted
    (fun segment member => isWord_of_isTypeName (words segment member))
    (fun next front => by
      cases front
      rfl) angled
  obtain ⟨first, others, rfl⟩ := List.exists_cons_of_ne_nil some_argument
  have text : (named segments (first :: others)).text.toList =
      (String.intercalate "." segments).toList ++
        '<' :: (String.intercalate ", " (texts (first :: others))).toList ++
          ['>'] := by
    simp [TypeShape.text]
  rw [text, kindsBefore]
  · simpa [List.replicate_succ] using whole
  · exact some_argument

theorem readsText_array {element : TypeShape} (read : element.ReadsText) :
    (array element).ReadsText := by
  intro count rest chars kinds ends further
  have suffix : ReadAs rest ('[' :: ']' :: (List.replicate count '>' ++ chars))
      (.symbol .openBracket :: .symbol .closeBracket :: (angles count ++ kinds)) :=
    .whole .openBracket '[' rfl (by decide) (.whole .closeBracket ']' rfl
      (by decide) (.angles count ends further))
  rw [kindsBefore]
  cases nullable : element.isNullable with
  | true =>
      have text : (array element).text.toList =
          '(' :: element.text.toList ++ [')', '[', ']'] := by
        simp [TypeShape.text, nullable]
      have inside := @read 0 _ _ _ (ends_cons (by decide) _)
        (.whole .closeParen ')' rfl (by decide) suffix)
      rw [text]
      simpa using ReadAs.whole .openParen '(' rfl (by decide) inside
  | false =>
      have text : (array element).text.toList =
          element.text.toList ++ ['[', ']'] := by
        simp [TypeShape.text, nullable]
      have whole := @read 0 _ _ _ (ends_cons (by decide) _) suffix
      rw [text]
      simpa using whole

theorem readsText_nullable {inner : TypeShape} (read : inner.ReadsText) :
    (nullable inner).ReadsText := by
  intro count rest chars kinds ends further
  have text : (nullable inner).text.toList =
      inner.text.toList ++ ' ' :: '|' :: ' ' :: Keyword.nullWord.text.toList := by
    simp [TypeShape.text, Keyword.text]
  have null := ReadAs.word (isWord_text .nullWord) (fun next front => by
    rw [List.append_assoc] at front
    exact isWordPart_ends ends front) (.angles count ends further)
  rw [ofWord_text] at null
  have pipe := ReadAs.symbol .pipe '|' [] rfl (by decide) rfl (fun next front => by
    cases front
    rfl) null.space
  have whole := @read 0 _ _ _ (ends_cons (by decide) _) pipe.space
  rw [text, kindsBefore]
  simpa using whole

mutual

theorem reads_text (type : TypeShape) (grammatical : type.Grammatical) :
    type.StartsText ∧ type.ReadsText := by
  cases type with
  | named segments arguments =>
      obtain ⟨some_segment, words, argumentsGrammatical⟩ := grammatical
      refine ⟨startsText_named arguments some_segment words, ?_⟩
      cases arguments with
      | nil => exact readsText_bareName words
      | cons first others =>
          have read := reads_texts (first :: others) argumentsGrammatical
          exact readsText_named words (List.cons_ne_nil _ _)
            (fun argument member => (read argument member).2)
            (fun argument member => (read argument member).1)
  | array element =>
      have read := reads_text element grammatical
      exact ⟨read.1.array, readsText_array read.2⟩
  | nullable inner =>
      have read := reads_text inner grammatical
      exact ⟨read.1.nullable, readsText_nullable read.2⟩

theorem reads_texts (types : List TypeShape)
    (grammatical : AllGrammatical types) :
    ∀ type ∈ types, type.StartsText ∧ type.ReadsText := by
  cases types with
  | nil => simp
  | cons type others =>
      exact List.forall_mem_cons.mpr
        ⟨reads_text type grammatical.1, reads_texts others grammatical.2⟩

end

end TypeShape

/-! ## Whole texts -/

/-- A text that is read as tokens to its end has these tokens and no faults. -/
theorem SourceText.scan_eq (name : String) {text : String}
    {kinds : List TokenKind} (read : ReadAs [] text.toList kinds) :
    ∃ tokens finish, SourceText.scan ⟨name, text⟩ =
        ⟨tokens ++ [finish], .empty⟩ ∧
      tokens.map Token.kind = kinds ∧ finish.kind = .endOfFile := by
  obtain ⟨tokens, same, reads⟩ := read.scanFrom .first
  let finish : Token := ⟨.endOfFile, .point (Position.first.advance text.toList)⟩
  refine ⟨tokens, finish, ?_, same, rfl⟩
  have enough := read.length_le
  obtain ⟨more, count⟩ := Nat.exists_eq_add_of_le enough
  have scanned := reads ⟨name, text⟩ more .empty rfl
  rw [List.append_nil, ← count] at scanned
  refine scanned.trans ?_
  rw [Scan.scanFrom]
  simp [skipTrivia]
  rfl

namespace Grammar

/-- Tokens that are left are tokens from before, unless the first one is what a
`>` was taken off. -/
theorem Onward.isSuffix {previous last : Span} {tokens left : List Token}
    (onward : Onward previous tokens last left)
    (whole : ∀ token, left.head? = some token → ∀ mark half,
      afterAngle? mark = some half → token.kind ≠ .symbol half) :
    left <:+ tokens := by
  induction onward with
  | refl => exact List.suffix_refl _
  | take _ inductionHypothesis =>
      exact (inductionHypothesis whole).trans (List.suffix_cons _ _)
  | split found splits _ inductionHypothesis =>
      rcases List.suffix_cons_iff.mp (inductionHypothesis whole) with
        same | further
      · exact absurd rfl (whole _ (by rw [same]; rfl) _ _ splits)
      · exact further.trans (List.suffix_cons _ _)

theorem rest_initialState (source : SourceText) (tokens : List Token)
    {finish : Token} (isEnd : finish.kind = .endOfFile) :
    (initialState source (tokens ++ [finish])).rest = tokens ++ [finish] := by
  change completed (tokens ++ [finish]) = tokens ++ [finish]
  unfold completed
  rw [List.getLast?_concat]
  exact if_pos (isEndOfFile_iff.mpr isEnd)

section

variable {type : TypeShape}

/-- A type in front of a semicolon is divided into the same tokens as by
itself. -/
theorem scan_type (name : String) (grammatical : type.Grammatical) :
    (SourceText.scan ⟨name, type.text⟩).tokens.map Token.kind =
        type.kinds ++ [.endOfFile] ∧
      ∃ tokens semicolon finish,
        SourceText.scan ⟨name, type.text ++ ";"⟩ =
          ⟨tokens ++ [semicolon, finish], .empty⟩ ∧
        tokens.map Token.kind = type.kinds ∧
        semicolon.kind = .symbol .semicolon ∧ finish.kind = .endOfFile := by
  have reads := (TypeShape.reads_text type grammatical).2
  constructor
  · have alone : ReadAs [] type.text.toList type.kinds := by
      simpa [TypeShape.kinds] using @reads 0 [] [] [] nofun .nil
    obtain ⟨tokens, finish, scanned, kinds, isEnd⟩ :=
      SourceText.scan_eq name alone
    simp [scanned, kinds, isEnd]
  · have semicolon : ReadAs [] [';'] [.symbol .semicolon] :=
      .whole .semicolon ';' rfl (by decide) .nil
    have followed := @reads 0 _ _ _ (TypeShape.ends_cons (by decide) []) semicolon
    obtain ⟨all, finish, scanned, whole, isEnd⟩ :=
      @SourceText.scan_eq name (type.text ++ ";") _
        (by rw [String.toList_append]; exact followed)
    obtain ⟨tokens, others, rfl, kinds, isOne⟩ := List.map_eq_append_iff.mp whole
    obtain ⟨semicolon, rfl, isSemicolon⟩ := List.map_eq_singleton_iff.mp isOne
    rw [List.append_assoc] at scanned
    exact ⟨tokens, semicolon, finish, scanned, kinds, isSemicolon, isEnd⟩

/-- The tokens of a type are taken from in front of a semicolon. -/
theorem typeExpr_takes (source : SourceText) {tokens : List Token}
    {semicolon finish : Token} (grammatical : type.Grammatical)
    (printable : type.isPrintable = true)
    (lexed : ∀ token ∈ tokens ++ [semicolon, finish], token.kind.IsLexed)
    (kinds : tokens.map Token.kind = type.kinds)
    (isSemicolon : semicolon.kind = .symbol .semicolon)
    (isEnd : finish.kind = .endOfFile) :
    ∃ result later,
      typeExpr (initialState source (tokens ++ [semicolon, finish])) =
        (some result, later) ∧
      later.rest = [semicolon, finish] ∧ later.diagnostics = .empty ∧
      result.shape = type := by
  have rest : (initialState source (tokens ++ [semicolon, finish])).rest =
      tokens ++ [semicolon, finish] := by
    simpa using rest_initialState source (tokens ++ [semicolon]) isEnd
  have ready : (initialState source (tokens ++ [semicolon, finish])).Ready :=
    ⟨Arena.closed_empty, isLexed_completed lexed, kind_finishOf _⟩
  generalize begun : initialState source (tokens ++ [semicolon, finish]) = state
    at rest ready ⊢
  have stateKinds : state.kinds =
      type.kinds ++ [.symbol .semicolon, .endOfFile] := by
    simp [State.kinds, rest, kinds, isSemicolon, isEnd]
  obtain ⟨result, later, given, reaches, shape, left⟩ :=
    gives_typeExpr grammatical printable ready stateKinds
      ⟨by simp, by simp, by simp, by simp [StartsNullable]⟩
  have silent : later.diagnostics = .empty := by
    rw [reaches.silent, ← begun]
    rfl
  refine ⟨result, later, given, ?_, silent, shape⟩
  have isSuffix : later.rest <:+ tokens ++ [semicolon, finish] := by
    rw [← rest]
    refine (Steady.of_state given).onward.isSuffix ?_
    intro token front mark half splits same
    have head := congrArg List.head? left
    rw [State.kinds, List.head?_map, front, Option.map_some, same] at head
    cases head
    cases mark <;> cases splits
  have short := congrArg List.length left
  rw [State.kinds, List.length_map] at short
  exact (List.suffix_of_suffix_length_le isSuffix (List.suffix_append _ _)
    (Nat.le_of_eq short)).eq_of_length short

end

/-- The text of a type is read as that type. If the text stands in front of a
semicolon, it is divided into tokens without a fault, the same as by itself, and
the parser of types takes these and no other ones and gives the type back. -/
theorem typeExpr_reads_text (name : String) (type : TypeExpr)
    (grammatical : type.shape.Grammatical)
    (printable : type.shape.isPrintable = true) :
    let source : SourceText := ⟨name, type.text ++ ";"⟩
    source.scan.diagnostics = .empty ∧
    ∃ tokens semicolon finish result later,
      source.scan.tokens = tokens ++ [semicolon, finish] ∧
      semicolon.kind = .symbol .semicolon ∧ finish.kind = .endOfFile ∧
      (SourceText.scan ⟨name, type.text⟩).tokens.map Token.kind =
        tokens.map Token.kind ++ [.endOfFile] ∧
      typeExpr (initialState source source.scan.tokens) =
        (some result, later) ∧
      later.rest = [semicolon, finish] ∧ later.diagnostics = .empty ∧
      result.shape = type.shape := by
  intro source
  obtain ⟨alone, tokens, semicolon, finish, scanned, kinds, isSemicolon, isEnd⟩ :=
    scan_type name grammatical
  have same : source.scan = ⟨tokens ++ [semicolon, finish], .empty⟩ := scanned
  have clean : source.scan.diagnostics.hasErrors = false := by
    rw [same]
    rfl
  have lexed := SourceText.scan_isLexed clean
  rw [same] at lexed ⊢
  obtain ⟨result, later, given, left, silent, shape⟩ :=
    typeExpr_takes source grammatical printable lexed kinds isSemicolon isEnd
  exact ⟨rfl, tokens, semicolon, finish, result, later, rfl, isSemicolon, isEnd,
    kinds ▸ alone, given, left, silent, shape⟩

/-- The type `(Map<from, a.Box<Box<null>>> | null)[]`. -/
def nestedType : TypeExpr :=
  let place : Span := .point .first
  .array (.nullable (.named [⟨"Map", place⟩]
    [.simple "from" place,
      .named [⟨"a", place⟩, ⟨"Box", place⟩]
        [.named [⟨"Box", place⟩] [.simple "null" place] place] place] place)
    place) place

/-- The three angles of `(Map<from, a.Box<Box<null>>> | null)[]` are one token,
and the type is given back. -/
theorem typeExpr_reads_nestedType :
    let source : SourceText := ⟨"a.ts", nestedType.text ++ ";"⟩
    nestedType.text = "(Map<from, a.Box<Box<null>>> | null)[]" ∧
    ∃ result later,
      typeExpr (initialState source source.scan.tokens) =
        (some result, later) ∧
      later.rest.map Token.kind = [.symbol .semicolon, .endOfFile] ∧
      result.shape = nestedType.shape := by
  have grammatical : nestedType.shape.Grammatical := by
    simp only [nestedType, TypeExpr.simple, TypeExpr.shape, TypeExpr.shapes,
      TypeShape.Grammatical, TypeShape.AllGrammatical]
    decide
  obtain ⟨_, tokens, semicolon, finish, result, later, _, isSemicolon, isEnd, _,
    given, left, _, shape⟩ :=
      typeExpr_reads_text "a.ts" nestedType grammatical (by decide)
  refine ⟨by decide, result, later, given, ?_, shape⟩
  rw [left, List.map_cons, List.map_cons, isSemicolon, isEnd, List.map_nil]

end Grammar

end PluginSurface
