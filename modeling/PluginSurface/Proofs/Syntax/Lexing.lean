import PluginSurface.Proofs.Grammar.ParsedDeclarations
import PluginSurface.Proofs.Syntax.Lexemes

/-!
# Texts as they are scanned

If nothing is wrong with a text, its tokens are well-formed: words are words,
and numbers are spelled so that they can be read again.
-/

namespace PluginSurface

namespace Scan

/-! ## Numbers -/

theorem numberLexeme_of_clean {start : Position} {spelling : List Char}
    {kind : TokenKind} {read : String → Option TokenKind}
    (spells : ∀ text found, read text = some found → found.text = text)
    (clean : (numberLexeme start spelling read).faults = [])
    (given : (numberLexeme start spelling read).kind = some kind) :
    ∀ other, numberLexeme other spelling read =
      ⟨kind.text.toList.length, some kind, []⟩ := by
  intro other
  cases found : read (String.ofList spelling) with
  | none => simp [numberLexeme, found] at clean
  | some number =>
      simp only [numberLexeme, found] at given ⊢
      cases given
      rw [spells _ _ found, String.toList_ofList]

theorem text_of_map_integer {value : Option UInt64} {text : String}
    {kind : TokenKind}
    (found : value.map (.integer · text) = some kind) : kind.text = text := by
  obtain ⟨number, _, rfl⟩ := Option.map_eq_some_iff.mp found
  rfl

theorem scanNumber_isNumber {start : Position} {chars : List Char}
    {kind : TokenKind} (starts : startsNumber chars = true)
    (clean : (scanNumber start chars).faults = [])
    (given : (scanNumber start chars).kind = some kind) :
    kind.IsNumber := by
  refine ⟨chars, starts, ?_⟩
  unfold scanNumber at clean given ⊢
  split at clean
  · next base announced =>
      exact numberLexeme_of_clean (fun _ _ => text_of_map_integer) clean
        (by simpa [announced] using given)
  · next announced =>
      refine numberLexeme_of_clean (fun text found read => ?_) clean
        (by simpa [announced] using given)
      split at read
      · cases read
        rfl
      · exact text_of_map_integer read

/-! ## Words -/

theorem isWord_takeWhile {char : Char} {rest : List Char}
    (starts : isWordStart char = true) :
    isWord (String.ofList ((char :: rest).takeWhile isWordPart)) = true := by
  rw [List.takeWhile_cons, if_pos (isWordPart_of_isWordStart starts)]
  simp only [isWord, String.toList_ofList, starts, Bool.true_and]
  exact List.all_takeWhile

theorem ofWord_isLexed {word : String} (isWord : isWord word = true) :
    (TokenKind.ofWord word).IsLexed := by
  unfold TokenKind.ofWord
  split
  · trivial
  · exact ⟨isWord, ‹_›⟩

/-! ## Lexemes -/

theorem scanLexeme_isLexed {start : Position} {char : Char} {rest : List Char}
    {kind : TokenKind} (clean : (scanLexeme start char rest).faults = [])
    (given : (scanLexeme start char rest).kind = some kind) :
    kind.IsLexed := by
  unfold scanLexeme at clean given
  split at given
  · cases given
    trivial
  split at given
  · next notQuote starts =>
      rw [if_neg notQuote, if_pos starts] at clean
      have isNumber := scanNumber_isNumber starts clean given
      obtain ⟨text, ⟨value, found⟩ | ⟨value, found⟩⟩ :=
        scanNumber_kind start (char :: rest)
      · cases given.symm.trans found
        exact isNumber
      · cases given.symm.trans found
        exact isNumber
  split at given
  · next starts =>
      cases given
      exact ofWord_isLexed (isWord_takeWhile starts)
  · split at given
    · cases given
      trivial
    · cases given

/-! ## Texts -/

theorem scanFrom_isLexed {source : SourceText} {bound : Nat}
    {position : Position} {chars : List Char} {diagnostics : Diagnostics}
    (clean : (scanFrom source bound position chars
      diagnostics).diagnostics.hasErrors = false) :
    ∀ token ∈ (scanFrom source bound position chars diagnostics).tokens,
      token.kind.IsLexed := by
  induction bound generalizing position chars with
  | zero => exact List.forall_mem_singleton.mpr trivial
  | succ bound inductionHypothesis =>
      have step := scanFrom_cleanStep clean
      generalize scanFrom source (bound + 1) position chars diagnostics =
        result at clean step ⊢
      generalize skipTrivia .blank position chars = trivia at step
      cases step with
      | finish => exact List.forall_mem_singleton.mpr trivial
      | token noFeed alone further =>
          subst further
          refine List.forall_mem_cons.mpr ⟨?_, inductionHypothesis clean⟩
          exact scanLexeme_isLexed (congrArg Lexeme.faults (alone .first))
            (congrArg Lexeme.kind (alone .first))

end Scan

theorem SourceText.scan_isLexed {source : SourceText}
    (clean : source.scan.diagnostics.hasErrors = false) :
    ∀ token ∈ source.scan.tokens, token.kind.IsLexed :=
  Scan.scanFrom_isLexed clean

/-- A program that is made of a text is grammatical. -/
theorem SourceText.parse_grammatical {source : SourceText} {kind : SourceKind}
    {program : Program} (parsed : source.parse kind = .ok program) :
    program.tree.Grammatical := by
  unfold SourceText.parse at parsed
  dsimp only at parsed
  split at parsed
  · cases parsed
  · next clean =>
      exact Grammar.parse_grammatical
        (SourceText.scan_isLexed (Bool.eq_false_iff.mpr clean)) parsed

end PluginSurface
