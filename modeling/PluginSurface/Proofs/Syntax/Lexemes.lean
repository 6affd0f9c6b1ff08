import PluginSurface.Proofs.Source.Positions
import PluginSurface.Proofs.Syntax.Numerals

/-!
# Lexemes on their own

A lexeme takes characters from the front of a text, and its faults start among
the characters of the text. If nothing is wrong with it, the characters that it
takes make up the same lexeme when there is nothing else.
-/

namespace PluginSurface

theorem Symbol.toList_of_ofChars? {chars : List Char} {symbol : Symbol}
    (found : ofChars? chars = some symbol) : symbol.text.toList = chars := by
  unfold ofChars? at found
  simpa using List.find?_some found

theorem TokenKind.ofWord_ne_endOfFile (word : String) :
    ofWord word ≠ .endOfFile := by
  unfold ofWord
  split <;> simp

namespace Scan

/-! ## Numbers -/

theorem numberLexeme_start {start : Position} {spelling : List Char}
    {read : String → Option TokenKind} {fault : SyntaxFault × Span}
    (member : fault ∈ (numberLexeme start spelling read).faults) :
    fault.2.start = start := by
  unfold numberLexeme at member
  dsimp only at member
  split at member
  · cases member
  · cases List.mem_singleton.mp member
    rfl

theorem scanNumber_start {start : Position} {chars : List Char}
    {fault : SyntaxFault × Span}
    (member : fault ∈ (scanNumber start chars).faults) :
    fault.2.start = start := by
  unfold scanNumber at member
  split at member
  · exact numberLexeme_start member
  · exact numberLexeme_start member

theorem numberLexeme_anywhere {start : Position} {spelling : List Char}
    {read : String → Option TokenKind}
    (clean : (numberLexeme start spelling read).faults = [])
    (other : Position) :
    numberLexeme other spelling read = numberLexeme start spelling read := by
  unfold numberLexeme at clean ⊢
  dsimp only at clean ⊢
  split
  · rfl
  · next unknown =>
      rw [unknown] at clean
      cases clean

theorem scanNumber_anywhere {start : Position} {chars : List Char}
    (clean : (scanNumber start chars).faults = []) (other : Position) :
    scanNumber other chars = scanNumber start chars := by
  unfold scanNumber at clean ⊢
  split at clean
  · exact numberLexeme_anywhere clean other
  · exact numberLexeme_anywhere clean other

/-! ## Words -/

theorem isWordPart_of_isWordStart {char : Char}
    (starts : isWordStart char = true) : isWordPart char = true := by
  simp only [isWordStart, isWordPart, Char.isAlphanum, Bool.or_eq_true] at *
  exact starts.imp_left fun inner => inner.imp_left .inl

/-! ## Strings -/

/-- A body takes characters of a text, and its faults start among them. -/
structure StringBody.FoundIn (body : StringBody) (position : Position)
    (chars : List Char) : Prop where
  fits : body.size ≤ chars.length
  located : ∀ fault ∈ body.faults, position.IsWithin chars fault.2.start

theorem StringBody.FoundIn.prepend {body : StringBody} {position : Position}
    {char : Char} {rest : List Char}
    (found : body.FoundIn (position.after char) rest) (content : List Char)
    {faults : List (SyntaxFault × Span)}
    (near : ∀ fault ∈ faults, fault.2.start = position ∨
      fault.2.start = position.after char) :
    (body.prepend content faults).FoundIn position (char :: rest) := by
  refine ⟨Nat.succ_le_succ found.fits, fun fault member => ?_⟩
  rcases List.mem_append.mp member with isNear | isFurther
  · rcases near fault isNear with same | same
    · rw [same]
      exact .start position _
    · rw [same]
      exact .behind [char] (.start _ _)
  · exact .behind [char] (found.located fault isFurther)

theorem stringBody_foundIn (quote : Char) (taken : Nat) (position : Position)
    (chars : List Char) :
    (stringBody quote taken position chars).FoundIn position chars := by
  fun_induction stringBody quote taken position chars with
  | case1 => exact ⟨Nat.le_refl _, by simp⟩
  | case2 taken position char rest inductionHypothesis =>
      exact inductionHypothesis.prepend [] (by simp)
  | case3 => exact ⟨Nat.zero_le _, by simp⟩
  | case4 => exact ⟨by simp, by simp⟩
  | case5 position rest escape next _ _ inductionHypothesis =>
      refine inductionHypothesis.prepend _ fun fault member => ?_
      obtain ⟨_, _, rfl⟩ := List.mem_map.mp member
      exact .inr rfl
  | case6 position char rest next _ _ _ _ inductionHypothesis =>
      refine inductionHypothesis.prepend _ fun fault member => ?_
      cases List.mem_singleton.mp member
      exact .inl rfl
  | case7 position char rest next _ _ _ _ inductionHypothesis =>
      exact inductionHypothesis.prepend _ (by simp)

theorem length_of_scalar? {digits : List Char} {char : Char}
    (denoted : scalar? digits = some char) : digits.length = 4 := by
  unfold scalar? at denoted
  dsimp only at denoted
  split at denoted
  · next fits => simpa using (Bool.and_eq_true_iff.mp fits).1
  · cases denoted

/-- The escape sequence of a scalar value takes four digits. -/
theorem size_readEscape_unicode {rest : List Char}
    (clean : (readEscape ('u' :: rest)).fault = none) :
    (readEscape ('u' :: rest)).size = 5 := by
  simp only [readEscape] at clean ⊢
  split
  · next denoted => rw [length_of_scalar? denoted]
  · next unknown => simp [unknown] at clean

theorem readEscape_of_ne {char : Char} (single : char ≠ 'u')
    (rest other : List Char) :
    readEscape (char :: other) = readEscape (char :: rest) := by
  unfold readEscape
  split <;> simp_all

/-- An escape sequence is read from the characters that it takes. -/
theorem readEscape_append {front more : List Char}
    (clean : (readEscape (front ++ more)).fault = none)
    (inside : (readEscape (front ++ more)).size ≤ front.length)
    (other : List Char) :
    readEscape (front ++ other) = readEscape (front ++ more) := by
  cases front with
  | nil =>
      revert clean inside
      fun_cases readEscape more <;> simp
  | cons char front =>
      rw [List.cons_append] at clean inside ⊢
      by_cases single : char = 'u'
      · subst single
        rw [size_readEscape_unicode clean, List.length_cons] at inside
        have enough : 4 ≤ front.length := Nat.le_of_succ_le_succ inside
        rw [List.cons_append]
        simp only [readEscape]
        rw [List.take_append_of_le_length enough,
          List.take_append_of_le_length enough]
      · exact readEscape_of_ne single _ _

/-- A string that is closed, with nothing wrong in it, ends with its first
quote that belongs to no escape sequence. -/
theorem stringBody_closed {quote : Char} {taken : Nat} {position : Position}
    {chars : List Char}
    (clean : (stringBody quote taken position chars).faults = [])
    (closed : (stringBody quote taken position chars).isClosed = true) :
    ∃ front more, chars = front ++ quote :: more ∧ taken ≤ front.length ∧
      (stringBody quote taken position chars).size = front.length + 1 ∧
      ∀ other, stringBody quote taken other (front ++ [quote]) =
        stringBody quote taken position chars := by
  fun_induction stringBody quote taken position chars with
  | case1 => cases closed
  | case2 taken position char rest inductionHypothesis =>
      obtain ⟨front, more, rfl, enough, size, alone⟩ :=
        inductionHypothesis clean closed
      refine ⟨char :: front, more, rfl, Nat.succ_le_succ enough,
        congrArg Nat.succ size, fun other => ?_⟩
      rw [List.cons_append, stringBody, alone]
  | case3 => cases closed
  | case4 position rest isEnd =>
      refine ⟨[], rest, rfl, Nat.le_refl _, rfl, fun other => ?_⟩
      rw [List.nil_append, stringBody, if_neg isEnd, if_pos rfl]
  | case5 position rest escape next isInside notQuote inductionHypothesis =>
      obtain ⟨cleanEscape, cleanRest⟩ := List.append_eq_nil_iff.mp clean
      have noFault : escape.fault = none := by
        simpa using cleanEscape
      obtain ⟨front, more, rfl, enough, size, alone⟩ :=
        inductionHypothesis cleanRest closed
      have same : readEscape (front ++ [quote]) = escape :=
        readEscape_append noFault enough [quote]
      refine ⟨'\\' :: front, more, rfl, Nat.zero_le _,
        congrArg Nat.succ size, fun other => ?_⟩
      rw [List.cons_append, stringBody, if_neg isInside, if_neg notQuote,
        if_pos rfl, same]
      dsimp only
      rw [alone, noFault]
      rfl
  | case6 position char rest next _ _ _ _ inductionHypothesis =>
      cases clean
  | case7 position char rest next isInside notQuote notEscape isPlain
      inductionHypothesis =>
      obtain ⟨front, more, rfl, enough, size, alone⟩ :=
        inductionHypothesis clean closed
      refine ⟨char :: front, more, rfl, Nat.zero_le _,
        congrArg Nat.succ size, fun other => ?_⟩
      have sameHead : (front ++ [quote]).head? =
          (front ++ quote :: more).head? := by
        cases front <;> rfl
      rw [List.cons_append, stringBody, if_neg isInside, if_neg notQuote,
        if_neg notEscape, sameHead, if_neg isPlain, alone]

/-! ## Symbols -/

theorem longestSymbol?_isPrefix {chars : List Char} {symbol : Symbol}
    (found : longestSymbol? chars = some symbol) :
    symbol.text.toList <+: chars := by
  unfold longestSymbol? at found
  rw [Option.or_eq_some_iff, Option.or_eq_some_iff] at found
  rcases found with three | ⟨_, two | ⟨_, one⟩⟩
  · exact Symbol.toList_of_ofChars? three ▸ List.take_prefix _ _
  · exact Symbol.toList_of_ofChars? two ▸ List.take_prefix _ _
  · exact Symbol.toList_of_ofChars? one ▸ List.take_prefix _ _

theorem longestSymbol?_text (symbol : Symbol) :
    longestSymbol? symbol.text.toList = some symbol ∧
      startsNumber symbol.text.toList = false ∧
      '\n' ∉ symbol.text.toList ∧ symbol.text.toList ≠ [] := by
  cases symbol <;> decide

/-! ## Lexemes -/

/-- A lexeme takes characters of a text and its faults start among them. -/
structure Lexeme.FoundIn (lexeme : Lexeme) (position : Position)
    (chars : List Char) : Prop where
  takes : 0 < lexeme.size
  fits : lexeme.size ≤ chars.length
  located : ∀ fault ∈ lexeme.faults, position.IsWithin chars fault.2.start
  isPiece : lexeme.kind ≠ some .endOfFile

theorem scanString_foundIn (start : Position) (quote : Char)
    (rest : List Char) :
    (scanString start quote rest).FoundIn start (quote :: rest) := by
  have found := stringBody_foundIn quote 0 (start.after quote) rest
  refine ⟨Nat.succ_pos _, Nat.succ_le_succ found.fits, ?_, by simp [scanString]⟩
  intro fault member
  rcases List.mem_append.mp member with inBody | unclosed
  · exact .behind [quote] (found.located fault inBody)
  · split at unclosed
    · cases unclosed
    · cases List.mem_singleton.mp unclosed
      exact .start _ _

theorem scanNumber_foundIn (start : Position) {chars : List Char}
    (starts : startsNumber chars = true) :
    (scanNumber start chars).FoundIn start chars := by
  obtain ⟨front, isPrefix, startsFront, -, same⟩ := scanNumber_front starts
  have size := (same start).1
  refine ⟨?_, ?_, ?_, ?_⟩
  · rw [size]
    refine List.length_pos_iff.mpr ?_
    rintro rfl
    cases startsFront
  · exact size ▸ isPrefix.length_le
  · intro fault member
    rw [scanNumber_start member]
    exact .start _ _
  · obtain ⟨text, ⟨value, kind⟩ | ⟨value, kind⟩⟩ := scanNumber_kind start chars
    · simp [kind]
    · simp [kind]

theorem scanLexeme_foundIn (start : Position) (char : Char)
    (rest : List Char) :
    (scanLexeme start char rest).FoundIn start (char :: rest) := by
  unfold scanLexeme
  split
  · exact scanString_foundIn start char rest
  split
  · next starts => exact scanNumber_foundIn start starts
  split
  · next starts =>
      refine ⟨?_, (List.takeWhile_prefix _).length_le, by simp, ?_⟩
      · rw [List.takeWhile_cons, if_pos (isWordPart_of_isWordStart starts)]
        exact Nat.succ_pos _
      · simpa using TokenKind.ofWord_ne_endOfFile _
  split
  · next symbol found =>
      refine ⟨?_, ?_, by simp, by simp⟩
      · exact List.length_pos_iff.mpr (longestSymbol?_text symbol).2.2.2
      · exact (longestSymbol?_isPrefix found).length_le
  · refine ⟨Nat.one_pos, Nat.succ_le_succ (Nat.zero_le _), ?_, by simp⟩
    intro fault member
    cases List.mem_singleton.mp member
    exact .start _ _

/-! ## What a lexeme takes -/

/-- A lexeme takes a front of a text that does not end a line and that makes up
the same lexeme when nothing stands behind it. -/
def StandsAlone (start : Position) (char : Char) (rest : List Char) : Prop :=
  ∃ front more, rest = front ++ more ∧
    (char :: front).getLast? ≠ some '\n' ∧
    (scanLexeme start char rest).size = front.length + 1 ∧
    ∀ other, scanLexeme other char front = scanLexeme start char rest

section

variable {start : Position} {char : Char} {rest : List Char}

theorem getLast?_ne_of_not_mem {front : List Char} (noFeed : '\n' ∉ front) :
    front.getLast? ≠ some '\n' :=
  fun last => noFeed (List.mem_of_getLast? last)

theorem exists_tail {front : List Char} (isPrefix : front <+: char :: rest)
    (nonempty : front ≠ []) :
    ∃ tail more, front = char :: tail ∧ rest = tail ++ more := by
  cases front with
  | nil => exact absurd rfl nonempty
  | cons first tail =>
      obtain ⟨more, same⟩ := isPrefix
      cases same
      exact ⟨tail, more, rfl, rfl⟩

def isQuote (char : Char) : Bool :=
  char = '"' || char = '\x27' || char = '\x60'

theorem standsAlone_string (quotes : isQuote char = true)
    (clean : (scanString start char rest).faults = []) :
    StandsAlone start char rest := by
  have scans (other : Position) (chars : List Char) :
      scanLexeme other char chars = scanString other char chars :=
    if_pos quotes
  obtain ⟨cleanBody, closes⟩ := List.append_eq_nil_iff.mp clean
  have closed : (stringBody char 0 (start.after char) rest).isClosed =
      true := by
    by_contra isOpen
    rw [if_neg isOpen] at closes
    cases closes
  obtain ⟨front, more, rfl, -, size, alone⟩ :=
    stringBody_closed cleanBody closed
  refine ⟨front ++ [char], more, by simp, ?_, ?_, fun other => ?_⟩
  · rw [← List.cons_append, List.getLast?_concat]
    rintro ⟨⟩
    cases quotes
  · rw [scans]
    simpa [scanString] using size
  · rw [scans, scans]
    simp [scanString, alone, closed, cleanBody]

theorem standsAlone_number (noQuote : ¬isQuote char = true)
    (starts : startsNumber (char :: rest) = true)
    (clean : (scanNumber start (char :: rest)).faults = []) :
    StandsAlone start char rest := by
  have scans (other : Position) (chars : List Char)
      (starts : startsNumber (char :: chars) = true) :
      scanLexeme other char chars = scanNumber other (char :: chars) :=
    (if_neg noQuote).trans (if_pos starts)
  obtain ⟨front, isPrefix, startsFront, noFeed, same⟩ := scanNumber_front starts
  obtain ⟨tail, more, rfl, rfl⟩ := exists_tail isPrefix (by
    rintro rfl
    cases startsFront)
  refine ⟨tail, more, rfl, getLast?_ne_of_not_mem noFeed, ?_, fun other => ?_⟩
  · rw [scans _ _ starts, (same start).1]
    rfl
  · have alone := (same other).2 [] endsNumber_nil
    rw [List.append_nil] at alone
    rw [scans _ _ starts, scans _ _ startsFront, alone,
      scanNumber_anywhere clean]

theorem standsAlone_word (noQuote : ¬isQuote char = true)
    (noNumber : ¬startsNumber (char :: rest) = true)
    (starts : isWordStart char = true) : StandsAlone start char rest := by
  have isPart := isWordPart_of_isWordStart starts
  have noPoint : char ≠ '.' := by
    rintro rfl
    cases starts
  have scans (other : Position) (chars : List Char) :
      scanLexeme other char chars =
        ⟨(chars.takeWhile isWordPart).length + 1, some (.ofWord
          (String.ofList (char :: chars.takeWhile isWordPart))), []⟩ := by
    rw [startsNumber_cons noPoint] at noNumber
    rw [← startsNumber_cons noPoint chars] at noNumber
    refine (if_neg noQuote).trans ((if_neg noNumber).trans ?_)
    rw [if_pos starts, List.takeWhile_cons_of_pos isPart]
    rfl
  refine ⟨rest.takeWhile isWordPart, rest.dropWhile isWordPart,
    List.takeWhile_append_dropWhile.symm, ?_, ?_, fun other => ?_⟩
  · refine getLast?_ne_of_not_mem ?_
    rw [← List.takeWhile_cons_of_pos isPart]
    exact fun member => absurd (List.mem_takeWhile_imp member) (by decide)
  · rw [scans]
  · rw [scans, scans, List.takeWhile_idem]

theorem standsAlone_symbol (noQuote : ¬isQuote char = true)
    (noNumber : ¬startsNumber (char :: rest) = true)
    (noWord : ¬isWordStart char = true) {symbol : Symbol}
    (found : longestSymbol? (char :: rest) = some symbol) :
    StandsAlone start char rest := by
  have scans (other : Position) (chars : List Char)
      (noNumber : ¬startsNumber (char :: chars) = true)
      (found : longestSymbol? (char :: chars) = some symbol) :
      scanLexeme other char chars =
        ⟨symbol.text.length, some (.symbol symbol), []⟩ := by
    refine (if_neg noQuote).trans ((if_neg noNumber).trans ?_)
    rw [if_neg noWord, found]
  obtain ⟨read, noNumberText, noFeed, nonempty⟩ := longestSymbol?_text symbol
  obtain ⟨tail, more, text, rfl⟩ :=
    exists_tail (longestSymbol?_isPrefix found) nonempty
  rw [text] at read noNumberText noFeed
  refine ⟨tail, more, rfl, getLast?_ne_of_not_mem noFeed, ?_, fun other => ?_⟩
  · rw [scans _ _ noNumber found, ← String.length_toList, text]
    rfl
  · rw [scans _ _ noNumber found, scans _ _ (by simp [noNumberText]) read]

/-- A lexeme with which nothing is wrong stands alone. -/
theorem scanLexeme_alone (clean : (scanLexeme start char rest).faults = []) :
    StandsAlone start char rest := by
  unfold scanLexeme at clean
  split at clean
  · next quotes => exact standsAlone_string quotes clean
  next noQuote =>
  split at clean
  · next starts => exact standsAlone_number noQuote starts clean
  next noNumber =>
  split at clean
  · next starts => exact standsAlone_word noQuote noNumber starts
  next noWord =>
  split at clean
  · next found => exact standsAlone_symbol noQuote noNumber noWord found
  · cases clean

/-- A lexeme with which nothing is wrong is a token. -/
theorem exists_kind (clean : (scanLexeme start char rest).faults = []) :
    ∃ kind, (scanLexeme start char rest).kind = some kind := by
  unfold scanLexeme at clean ⊢
  split
  · exact ⟨_, rfl⟩
  split
  · obtain ⟨text, ⟨value, kind⟩ | ⟨value, kind⟩⟩ :=
      scanNumber_kind start (char :: rest)
    · exact ⟨_, kind⟩
    · exact ⟨_, kind⟩
  next noQuote noNumber =>
  rw [if_neg noQuote, if_neg noNumber] at clean
  split
  · exact ⟨_, rfl⟩
  next noWord =>
  rw [if_neg noWord] at clean
  split
  · exact ⟨_, rfl⟩
  · next unknown =>
      rw [unknown] at clean
      cases clean

end

/-! ## Texts with which nothing is wrong -/

theorem hasErrors_push {diagnostics : Diagnostics} {error : Diagnostic} :
    (diagnostics.push error).hasErrors = true := by
  simp [Diagnostics.push, Diagnostics.hasErrors]

theorem hasErrors_report {source : SourceText} {diagnostics : Diagnostics}
    {faults : List (SyntaxFault × Span)} :
    (report source diagnostics faults).hasErrors =
      (diagnostics.hasErrors || !faults.isEmpty) := by
  induction faults generalizing diagnostics with
  | nil => simp [report]
  | cons fault faults inductionHypothesis =>
      change (report source (diagnostics.push _) faults).hasErrors = _
      rw [inductionHypothesis, hasErrors_push]
      simp

theorem hasErrors_report_eq_false {source : SourceText}
    {diagnostics : Diagnostics} {faults : List (SyntaxFault × Span)} :
    (report source diagnostics faults).hasErrors = false ↔
      diagnostics.hasErrors = false ∧ faults = [] := by
  simp [hasErrors_report]

theorem isFull_of_clean {diagnostics : Diagnostics}
    (clean : diagnostics.hasErrors = false) : diagnostics.isFull = false := by
  have none : diagnostics.errorCount = 0 := by
    simpa [Diagnostics.hasErrors] using clean
  simp [Diagnostics.isFull, none, Diagnostics.storedLimit]

section

variable {source : SourceText} {bound : Nat} {position : Position}
  {chars : List Char} {diagnostics : Diagnostics}

/-- Errors are not taken back. -/
theorem clean_of_scanFrom
    (clean : (scanFrom source bound position chars
      diagnostics).diagnostics.hasErrors = false) :
    diagnostics.hasErrors = false ∧
      (0 < bound → (skipTrivia .blank position chars).unclosed = none) := by
  induction bound generalizing position chars diagnostics with
  | zero => exact ⟨clean, fun positive => absurd positive (Nat.lt_irrefl 0)⟩
  | succ bound inductionHypothesis =>
      unfold scanFrom at clean
      extract_lets trivia reported at clean
      have ofReport {faults : List (SyntaxFault × Span)}
          (clean : (report source reported faults).hasErrors = false) :
          reported.hasErrors = false :=
        (hasErrors_report_eq_false.mp clean).1
      have early : reported.hasErrors = false := by
        split at clean
        · exact clean
        split at clean
        · exact clean
        dsimp only at clean
        split at clean
        · exact ofReport (inductionHypothesis clean).1
        · split at clean
          · exact ofReport clean
          · exact ofReport (inductionHypothesis clean).1
      unfold reported at early
      split at early
      · cases (hasErrors_report_eq_false.mp early).2
      · next closed => exact ⟨early, fun _ => closed⟩

/-- A step of a scan in which nothing is wrong. Behind what is skipped the
tokens end or one is read. -/
inductive CleanStep (source : SourceText) (bound : Nat)
    (diagnostics : Diagnostics) : Trivia → Result → Prop where
  | finish {position : Position} :
      CleanStep source bound diagnostics ⟨position, [], none⟩
        (Scan.finish position diagnostics)
  | token {position : Position} {char : Char} {front more : List Char}
      {kind : TokenKind} (noFeed : (char :: front).getLast? ≠ some '\n')
      (alone : ∀ other, scanLexeme other char front =
        ⟨front.length + 1, some kind, []⟩)
      {result : Result}
      (further : scanFrom source bound (position.advance (char :: front)) more
        diagnostics = result) :
      CleanStep source bound diagnostics
        ⟨position, char :: (front ++ more), none⟩
        { result with tokens :=
            ⟨kind, spanTo position (position.advance (char :: front))⟩ ::
              result.tokens }

theorem scanFrom_cleanStep
    (clean : (scanFrom source (bound + 1) position chars
      diagnostics).diagnostics.hasErrors = false) :
    CleanStep source bound diagnostics (skipTrivia .blank position chars)
      (scanFrom source (bound + 1) position chars diagnostics) := by
  obtain ⟨early, closed⟩ := clean_of_scanFrom clean
  have closed := closed (Nat.succ_pos bound)
  rw [scanFrom] at clean ⊢
  generalize skipTrivia .blank position chars = trivia at clean closed ⊢
  obtain ⟨start, rest, unclosed⟩ := trivia
  cases closed
  dsimp only at clean ⊢
  cases rest with
  | nil => exact .finish
  | cons char rest =>
      rw [isFull_of_clean early] at clean ⊢
      simp only [Bool.false_eq_true, if_false] at clean ⊢
      have noFaults : (scanLexeme start char rest).faults = [] := by
        split at clean
        · exact (hasErrors_report_eq_false.mp (clean_of_scanFrom clean).1).2
        · split at clean
          · exact (hasErrors_report_eq_false.mp clean).2
          · exact (hasErrors_report_eq_false.mp (clean_of_scanFrom clean).1).2
      obtain ⟨kind, given⟩ := exists_kind noFaults
      obtain ⟨front, more, rfl, noFeed, size, alone⟩ := scanLexeme_alone noFaults
      have lexemeIs : scanLexeme start char (front ++ more) =
          ⟨front.length + 1, some kind, []⟩ := by
        rw [← size, ← given, ← noFaults]
      have taken : (char :: (front ++ more)).take (front.length + 1) =
          char :: front := by simp
      have left : (char :: (front ++ more)).drop (front.length + 1) =
          more := by simp
      simp only [lexemeIs, taken, left] at alone ⊢
      rw [report, List.foldl_nil, isFull_of_clean early]
      exact .token noFeed alone rfl

end

end Scan

end PluginSurface
