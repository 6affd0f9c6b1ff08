import PluginSurface.Proofs.Syntax.Kinds
import PluginSurface.Proofs.Syntax.Lexemes
import PluginSurface.Proofs.Syntax.Trivia

/-!
# Texts made of words and symbols

A scanner takes the longest lexeme that it can. Whether some characters are that
lexeme depends on what stands behind them: a word ends in front of a character
that is no part of it, and a symbol in front of one with which it makes up no
longer symbol. From lexemes that are read in front of each other a text is put
together.
-/

namespace PluginSurface

theorem Symbol.mem_all (mark : Symbol) : mark ∈ all := by
  cases mark <;> decide

theorem Symbol.ofChars?_text (mark : Symbol) :
    ofChars? mark.text.toList = some mark := by
  have known : ∀ mark ∈ all, ofChars? mark.text.toList = some mark := by
    decide +kernel
  exact known mark mark.mem_all

/-- A symbol is the longest at the front of a text if no longer one goes on
from it there. -/
theorem Scan.longestSymbol?_eq {chars : List Char} {mark : Symbol}
    (found : mark.text.toList <+: chars)
    (longest : ∀ longer : Symbol, mark.text.toList <+: longer.text.toList →
      longer.text.toList <+: chars → longer = mark) :
    longestSymbol? chars = some mark := by
  have size : 0 < mark.text.toList.length ∧ mark.text.toList.length ≤ 3 := by
    cases mark <;> decide
  have exact : Symbol.ofChars? (chars.take mark.text.toList.length) =
      some mark := by
    rw [← List.prefix_iff_eq_take.mp found, Symbol.ofChars?_text]
  have further {count : Nat} (enough : mark.text.toList.length ≤ count) :
      Symbol.ofChars? (chars.take count) = none ∨
        Symbol.ofChars? (chars.take count) = some mark := by
    cases read : Symbol.ofChars? (chars.take count) with
    | none => exact .inl rfl
    | some longer =>
        have text := Symbol.toList_of_ofChars? read
        refine .inr (congrArg some (longest longer ?_ ?_))
        · exact text ▸ List.prefix_take_iff.mpr ⟨found, enough⟩
        · exact text ▸ List.take_prefix count chars
  unfold longestSymbol?
  have third := further size.2
  rcases (by omega : mark.text.toList.length = 1 ∨ mark.text.toList.length = 2 ∨
    mark.text.toList.length = 3) with one | two | three
  · rw [one] at exact
    have second := @further 2 (by omega)
    rcases third with third | third <;> rcases second with second | second <;>
      simp [third, second, exact]
  · rw [two] at exact
    rcases third with third | third <;> simp [third, exact]
  · rw [three] at exact
    simp [exact]

/-- Characters on one line count columns. -/
theorem Position.advance_of_no_feed (position : Position) {chars : List Char}
    (noFeed : '\n' ∉ chars) :
    position.advance chars =
      ⟨position.line, position.column + chars.length⟩ := by
  induction chars generalizing position with
  | nil => rfl
  | cons char chars inductionHypothesis =>
      obtain ⟨notFeed, further⟩ := not_or.mp (mt List.mem_cons.mpr noFeed)
      change (position.after char).advance chars = _
      rw [inductionHypothesis _ further, after, if_neg (Ne.symm notFeed)]
      simp only [List.length_cons, Position.mk.injEq, true_and]
      omega

namespace Scan

/-- Characters on the first line, from its start on, end in the column of their
number. -/
theorem spanTo_first {chars : List Char} (noFeed : '\n' ∉ chars)
    (nonempty : chars ≠ []) :
    spanTo .first (Position.first.advance chars) =
      ⟨.first, ⟨1, chars.length⟩⟩ := by
  have columns : ¬1 + chars.length ≤ 1 := by
    have := List.length_pos_iff.mpr nonempty
    omega
  rw [Position.advance_of_no_feed _ noFeed]
  simp [spanTo, Position.lastBefore, Position.first, columns]

theorem scanFrom_nil (source : SourceText) (bound : Nat) (position : Position)
    (diagnostics : Diagnostics) :
    scanFrom source bound position [] diagnostics =
      finish position diagnostics := by
  cases bound with
  | zero => rfl
  | succ bound => simp [scanFrom, skipTrivia]

/-! ## Single lexemes -/

/-- A character and others behind it are what a scanner takes in front of a
text, and they are one token. -/
structure Munches (char : Char) (front : List Char) (kind : TokenKind)
    (rest : List Char) : Prop where
  starts : StartsLexeme (char :: (front ++ rest))
  lexeme : ∀ start, scanLexeme start char (front ++ rest) =
    ⟨front.length + 1, some kind, []⟩

/-- A letter is no digit: the digits lie below both alphabets. -/
theorem not_isDigit_of_isAlpha {char : Char} (letter : char.isAlpha = true) :
    ¬char.isDigit = true := by
  intro digit
  have upToNine : char.val ≤ 57 :=
    of_decide_eq_true (Bool.and_eq_true_iff.mp digit).2
  rcases Bool.or_eq_true_iff.mp letter with upper | lower
  · have fromA : char.val ≥ 65 := (of_decide_eq_true upper).1
    exact absurd (UInt32.le_trans fromA upToNine) (by decide)
  · have fromA : char.val ≥ 97 :=
      of_decide_eq_true (Bool.and_eq_true_iff.mp lower).1
    exact absurd (UInt32.le_trans fromA upToNine) (by decide)

/-- What starts a word starts nothing else. -/
theorem isWordStart_only {char : Char} (starts : isWordStart char = true) :
    isBlank char = false ∧ isQuote char = false ∧ char.isDigit = false ∧
      char ≠ '.' ∧ char ≠ '/' := by
  refine ⟨?_, ?_, ?_, ?_, ?_⟩
  · refine Bool.eq_false_iff.mpr fun blank => ?_
    simp only [isBlank, Bool.or_eq_true, decide_eq_true_eq] at blank
    rcases blank with ((rfl | rfl) | rfl) | rfl <;> cases starts
  · refine Bool.eq_false_iff.mpr fun quote => ?_
    simp only [isQuote, Bool.or_eq_true, decide_eq_true_eq] at quote
    rcases quote with (rfl | rfl) | rfl <;> cases starts
  · refine Bool.eq_false_iff.mpr fun digit => ?_
    simp only [isWordStart, Bool.or_eq_true, decide_eq_true_eq] at starts
    rcases starts with (alpha | rfl) | rfl
    · exact absurd digit (not_isDigit_of_isAlpha alpha)
    · cases digit
    · cases digit
  · rintro rfl
    cases starts
  · rintro rfl
    cases starts

/-- A digit starts nothing else than a number. -/
theorem isDigit_only {char : Char} (digit : char.isDigit = true) :
    isBlank char = false ∧ isQuote char = false ∧ char ≠ '/' := by
  refine ⟨?_, ?_, ?_⟩
  · refine Bool.eq_false_iff.mpr fun blank => ?_
    simp only [isBlank, Bool.or_eq_true, decide_eq_true_eq] at blank
    rcases blank with ((rfl | rfl) | rfl) | rfl <;> cases digit
  · refine Bool.eq_false_iff.mpr fun quote => ?_
    simp only [isQuote, Bool.or_eq_true, decide_eq_true_eq] at quote
    rcases quote with (rfl | rfl) | rfl <;> cases digit
  · rintro rfl
    cases digit

/-- A word is taken whole in front of a character that is no part of it. -/
theorem munches_word {char : Char} {front rest : List Char}
    (starts : isWordStart char = true)
    (parts : ∀ part ∈ front, isWordPart part = true)
    (ends : ∀ next, rest.head? = some next → isWordPart next = false) :
    Munches char front (.ofWord (String.ofList (char :: front))) rest := by
  obtain ⟨noBlank, noQuote, noDigit, noDot, noSlash⟩ := isWordStart_only starts
  refine ⟨⟨char, front ++ rest, rfl, noBlank, fun comment =>
    noSlash comment.1⟩, fun start => ?_⟩
  have inside : ∀ part ∈ char :: front, isWordPart part = true :=
    List.forall_mem_cons.mpr ⟨isWordPart_of_isWordStart starts, parts⟩
  have taken := (span_append inside ends).1
  rw [List.cons_append] at taken
  rw [isQuote] at noQuote
  rw [scanLexeme, noQuote, startsNumber_cons noDot, noDigit, starts]
  simp [taken]

/-- Whether a symbol and a character behind it are the front of a symbol. -/
def goesOn (mark : Symbol) (next : Char) : Bool :=
  Symbol.all.any fun longer =>
    (mark.text.toList ++ [next]).isPrefixOf longer.text.toList

/-- Whether a symbol is the front of no other one. -/
def isWhole (mark : Symbol) : Bool :=
  Symbol.all.all fun longer =>
    longer == mark || !mark.text.toList.isPrefixOf longer.text.toList

theorem goesOn_of_isWhole {mark : Symbol} (whole : isWhole mark = true)
    (next : Char) : goesOn mark next = false := by
  refine Bool.eq_false_iff.mpr fun goes => ?_
  obtain ⟨longer, member, isPrefix⟩ := List.any_eq_true.mp goes
  obtain ⟨more, text⟩ := List.isPrefixOf_iff_prefix.mp isPrefix
  have known := List.all_eq_true.mp whole longer member
  have begins : mark.text.toList <+: longer.text.toList := ⟨next :: more, by
    rw [← text, List.append_assoc, List.singleton_append]⟩
  have same : longer = mark := by
    simpa [List.isPrefixOf_iff_prefix.mpr begins] using known
  have longest := congrArg List.length text
  rw [same] at longest
  simp at longest

theorem goesOn_less (next : Char) :
    goesOn .less next = (next == '=' || next == '<') := by
  simp [goesOn, Symbol.all, Symbol.text, List.isPrefixOf]

theorem goesOn_greater (next : Char) :
    goesOn .greater next = (next == '=' || next == '>') := by
  simp [goesOn, Symbol.all, Symbol.text, List.isPrefixOf]

theorem goesOn_doubleGreater (next : Char) :
    goesOn .doubleGreater next = (next == '>') := by
  simp [goesOn, Symbol.all, Symbol.text, List.isPrefixOf]

/-- A symbol that starts neither a comment nor a number is taken in front of a
character with which it does not go on. -/
theorem munches_mark {mark : Symbol} {char : Char} {front rest : List Char}
    (text : mark.text.toList = char :: front)
    (noComment : ¬(char = '/' ∧ ((front ++ rest).head? = some '/' ∨
      (front ++ rest).head? = some '*')))
    (noNumber : startsNumber (char :: (front ++ rest)) = false)
    (ends : ∀ next, rest.head? = some next → goesOn mark next = false) :
    Munches char front (.symbol mark) rest := by
  have plain : isBlank char = false ∧ isQuote char = false ∧
      isWordStart char = false := by
    cases mark <;> cases text <;> decide
  obtain ⟨noBlank, noQuote, noWord⟩ := plain
  refine ⟨⟨char, front ++ rest, rfl, noBlank, noComment⟩, fun start => ?_⟩
  have found : longestSymbol? (char :: (front ++ rest)) = some mark := by
    refine longestSymbol?_eq (text ▸ List.prefix_append _ _) ?_
    rintro longer ⟨more, whole⟩ isPrefix
    cases more with
    | nil =>
        have same := Symbol.ofChars?_text longer
        rw [← whole, List.append_nil, Symbol.ofChars?_text] at same
        exact (Option.some.inj same).symm
    | cons next more =>
        rw [← whole, ← List.cons_append, ← text, List.prefix_append_right_inj]
          at isPrefix
        obtain ⟨behind, rfl⟩ := isPrefix
        have goes : goesOn mark next = true := by
          refine List.any_eq_true.mpr ⟨longer, longer.mem_all, ?_⟩
          rw [List.isPrefixOf_iff_prefix, ← whole]
          exact ⟨more, by simp⟩
        exact absurd goes (by simp [ends next rfl])
  rw [isQuote] at noQuote
  rw [scanLexeme, noQuote, noNumber, noWord]
  simp [found, ← String.length_toList, text]

theorem munches_symbol {mark : Symbol} {char : Char} {front rest : List Char}
    (text : mark.text.toList = char :: front) (notSlash : char ≠ '/')
    (noNumber : startsNumber (char :: (front ++ rest)) = false)
    (ends : ∀ next, rest.head? = some next → goesOn mark next = false) :
    Munches char front (.symbol mark) rest :=
  munches_mark text (fun comment => notSlash comment.1) noNumber ends

/-! ## Lexemes behind each other -/

/-- Some characters, in front of others, are read as tokens of some kinds, with
blanks between them. -/
inductive ReadAs (rest : List Char) : List Char → List TokenKind → Prop where
  | nil : ReadAs rest [] []
  | blank {char : Char} {chars : List Char} {kinds : List TokenKind}
      (isBlank : isBlank char = true) (further : ReadAs rest chars kinds) :
      ReadAs rest (char :: chars) kinds
  | token {char : Char} {front chars : List Char} {kind : TokenKind}
      {kinds : List TokenKind} (munches : Munches char front kind (chars ++ rest))
      (further : ReadAs rest chars kinds) :
      ReadAs rest (char :: (front ++ chars)) (kind :: kinds)

/-- The same diagnostics and more tokens in front. -/
def Result.prepend (result : Result) (tokens : List Token) : Result :=
  { result with tokens := tokens ++ result.tokens }

theorem Result.prepend_prepend (result : Result) (first second : List Token) :
    (result.prepend second).prepend first = result.prepend (first ++ second) :=
  congrArg (Result.mk · _) (List.append_assoc _ _ _).symm

/-- A scanner goes on behind a lexeme that makes up a token, as long as there is
room for further faults. -/
theorem scanFrom_lexeme {char : Char} {front rest : List Char}
    {kind : TokenKind} {faults : List (SyntaxFault × Span)}
    {position : Position} (starts : StartsLexeme (char :: (front ++ rest)))
    (lexeme : scanLexeme position char (front ++ rest) =
      ⟨front.length + 1, some kind, faults⟩) (source : SourceText) (bound : Nat)
    {diagnostics : Diagnostics} (room : diagnostics.isFull = false)
    (roomBehind : (report source diagnostics faults).isFull = false) :
    Scan.scanFrom source (bound + 1) position (char :: (front ++ rest))
        diagnostics =
      (Scan.scanFrom source bound (position.advance (char :: front)) rest
        (report source diagnostics faults)).prepend
          [⟨kind, spanTo position (position.advance (char :: front))⟩] := by
  rw [Scan.scanFrom, starts.skipTrivia]
  simp [room, roomBehind, lexeme, Result.prepend]

namespace ReadAs

variable {chars rest : List Char} {kinds : List TokenKind}

theorem word {word : String} (isWord : isWord word = true)
    (ends : ∀ next, (chars ++ rest).head? = some next → isWordPart next = false)
    (further : ReadAs rest chars kinds) :
    ReadAs rest (word.toList ++ chars) (.ofWord word :: kinds) := by
  rw [Scan.isWord] at isWord
  split at isWord
  · cases isWord
  next first front text =>
  simp only [Bool.and_eq_true, List.all_eq_true] at isWord
  have munches := munches_word isWord.1 isWord.2 ends
  rw [← text, String.ofList_toList] at munches
  rw [text]
  exact .token munches further

theorem symbol (mark : Symbol) (char : Char) (front : List Char)
    (text : mark.text.toList = char :: front) (notSlash : char ≠ '/')
    (noNumber : startsNumber (char :: (front ++ (chars ++ rest))) = false)
    (ends : ∀ next, (chars ++ rest).head? = some next →
      goesOn mark next = false) (further : ReadAs rest chars kinds) :
    ReadAs rest (char :: (front ++ chars)) (.symbol mark :: kinds) :=
  .token (munches_symbol text notSlash noNumber ends) further

theorem space (further : ReadAs rest chars kinds) :
    ReadAs rest (' ' :: chars) kinds :=
  .blank rfl further

theorem scanFrom_blank {char : Char} (isBlank : isBlank char = true)
    (source : SourceText) (bound : Nat) (position : Position)
    (chars : List Char) (diagnostics : Diagnostics) :
    Scan.scanFrom source (bound + 1) position (char :: chars) diagnostics =
      Scan.scanFrom source (bound + 1) (position.after char) chars
        diagnostics := by
  have notSlash : char ≠ '/' := by
    rintro rfl
    cases isBlank
  have skips : skipTrivia .blank position (char :: chars) =
      skipTrivia .blank (position.after char) chars := by
    rw [skipTrivia, if_pos isBlank]
    · exact fun _ slash => absurd slash notSlash
    · exact fun _ slash => absurd slash notSlash
  rw [Scan.scanFrom, Scan.scanFrom, skips]

theorem scanFrom_munches {char : Char} {front : List Char} {kind : TokenKind}
    (munches : Munches char front kind rest) (source : SourceText) (bound : Nat)
    (position : Position) {diagnostics : Diagnostics}
    (room : diagnostics.isFull = false) :
    Scan.scanFrom source (bound + 1) position (char :: (front ++ rest))
        diagnostics =
      (Scan.scanFrom source bound (position.advance (char :: front)) rest
        diagnostics).prepend
          [⟨kind, spanTo position (position.advance (char :: front))⟩] :=
  scanFrom_lexeme munches.starts (munches.lexeme position) source bound room room

theorem length_le (read : ReadAs rest chars kinds) :
    kinds.length ≤ chars.length := by
  induction read with
  | nil => exact Nat.le_refl _
  | blank _ _ inductionHypothesis =>
      exact Nat.le_succ_of_le inductionHypothesis
  | token _ _ inductionHypothesis =>
      simp only [List.length_cons, List.length_append]
      omega

/-- A scanner reads the tokens and goes on behind them. -/
theorem scanFrom (read : ReadAs rest chars kinds) (position : Position) :
    ∃ tokens : List Token, tokens.map Token.kind = kinds ∧
      ∀ source bound diagnostics, diagnostics.isFull = false →
        Scan.scanFrom source (kinds.length + bound + 1) position (chars ++ rest)
            diagnostics =
          (Scan.scanFrom source (bound + 1) (position.advance chars) rest
            diagnostics).prepend tokens := by
  induction read generalizing position with
  | nil =>
      exact ⟨[], rfl, fun source bound diagnostics _ => by
        rw [List.length_nil, Nat.zero_add]; rfl⟩
  | @blank char chars kinds isBlank _ inductionHypothesis =>
      obtain ⟨tokens, same, reads⟩ := inductionHypothesis (position.after char)
      refine ⟨tokens, same, fun source bound diagnostics room => ?_⟩
      exact (scanFrom_blank isBlank _ _ _ _ _).trans
        (reads source bound diagnostics room)
  | @token char front chars kind kinds munches further inductionHypothesis =>
      obtain ⟨tokens, same, reads⟩ :=
        inductionHypothesis (position.advance (char :: front))
      let first : Token :=
        ⟨kind, spanTo position (position.advance (char :: front))⟩
      refine ⟨first :: tokens, congrArg (kind :: ·) same,
        fun source bound diagnostics room => ?_⟩
      have onward : (position.advance (char :: front)).advance chars =
          position.advance (char :: (front ++ chars)) := by
        simp [Position.advance]
      have count : (kind :: kinds).length + bound + 1 =
          kinds.length + bound + 1 + 1 := by
        rw [List.length_cons]
        omega
      rw [count, List.cons_append, List.append_assoc,
        scanFrom_munches munches source _ position room,
        reads source bound diagnostics room, onward, Result.prepend_prepend]
      rfl

end ReadAs

end Scan

end PluginSurface
