import PluginSurface.Proofs.Syntax.Munching
import PluginSurface.Syntax.Print

/-!
# Quoted texts are read back

A text is printed in quotes with five of its characters escaped. Each character
is read back from what is printed for it, whatever stands behind, so a scanner
finds nothing wrong with a quoted text and takes it up to its closing quote.
-/

namespace PluginSurface

namespace Print

theorem escapeChar_eq (char : Char) :
    escapeChar char = [char] ∧ char ≠ '"' ∧ char ≠ '\\' ∧ char ≠ '\n' ∨
      ∃ mark, escapeChar char = ['\\', mark] ∧ mark ≠ '\n' ∧
        ∀ rest, Scan.readEscape (mark :: rest) = ⟨1, [char], none⟩ := by
  by_cases isQuote : char = '"'
  · subst isQuote
    exact .inr ⟨'"', rfl, by decide, fun _ => by simp [Scan.readEscape]⟩
  by_cases isBackslash : char = '\\'
  · subst isBackslash
    exact .inr ⟨'\\', rfl, by decide, fun _ => by simp [Scan.readEscape]⟩
  by_cases isFeed : char = '\n'
  · subst isFeed
    exact .inr ⟨'n', rfl, by decide, fun _ => rfl⟩
  by_cases isReturn : char = '\r'
  · subst isReturn
    exact .inr ⟨'r', rfl, by decide, fun _ => rfl⟩
  by_cases isTab : char = '\t'
  · subst isTab
    exact .inr ⟨'t', rfl, by decide, fun _ => rfl⟩
  · exact .inl ⟨by simp [escapeChar, *], isQuote, isBackslash, isFeed⟩

theorem not_mem_escapeChar (char : Char) : '\n' ∉ escapeChar char := by
  rcases escapeChar_eq char with
    ⟨plain, -, -, notFeed⟩ | ⟨mark, escaped, notFeed, -⟩
  · simp [plain, Ne.symm notFeed]
  · simp [escaped, Ne.symm notFeed]

theorem toList_quote (content : String) :
    (quote content).toList =
      '"' :: (content.toList.flatMap escapeChar ++ ['"']) := by
  rw [quote, String.toList_ofList, List.cons_append]

/-- A quoted text stands on one line. -/
theorem not_mem_quote (content : String) : '\n' ∉ (quote content).toList := by
  rw [toList_quote]
  simp [not_mem_escapeChar]

end Print

namespace Scan

open Print

/-- What is printed for a character is read as this character. -/
theorem stringBody_escapeChar (char : Char) (position : Position)
    (rest : List Char) :
    ∃ next, stringBody '"' 0 position (escapeChar char ++ rest) =
      ⟨(escapeChar char).length + (stringBody '"' 0 next rest).size,
        char :: (stringBody '"' 0 next rest).content,
        (stringBody '"' 0 next rest).faults,
        (stringBody '"' 0 next rest).isClosed⟩ := by
  rcases escapeChar_eq char with
    ⟨plain, notQuote, notBackslash, notFeed⟩ | ⟨mark, escaped, -, reads⟩
  · refine ⟨position.after char, ?_⟩
    rw [plain]
    simp [stringBody, StringBody.prepend, notQuote, notBackslash, notFeed,
      Nat.add_comm]
  · refine ⟨(position.after '\\').after mark, ?_⟩
    rw [escaped]
    simp [stringBody, StringBody.prepend, reads]
    omega

/-- The body of a quoted text is the text, whatever stands behind its closing
quote. -/
theorem stringBody_escaped (content : List Char) (position : Position)
    (rest : List Char) :
    stringBody '"' 0 position (content.flatMap escapeChar ++ '"' :: rest) =
      ⟨(content.flatMap escapeChar).length + 1, content, [], true⟩ := by
  induction content generalizing position with
  | nil => simp [stringBody]
  | cons char content inductionHypothesis =>
      obtain ⟨next, reads⟩ := stringBody_escapeChar char position
        (content.flatMap escapeChar ++ '"' :: rest)
      rw [List.flatMap_cons, List.append_assoc, reads, inductionHypothesis]
      simp only [List.length_append, Nat.add_assoc]

/-- A quoted text is one lexeme, whatever stands behind it. -/
theorem munches_quote (content : String) (rest : List Char) :
    Munches '"' (content.toList.flatMap escapeChar ++ ['"'])
      (.string content) rest where
  starts := ⟨'"', _, rfl, by decide, fun comment => by
    exact absurd comment.1 (by decide)⟩
  lexeme start := by
    have body := stringBody_escaped content.toList (start.after '"') rest
    have quotes : scanLexeme start '"'
        (content.toList.flatMap escapeChar ++ ['"'] ++ rest) =
        scanString start '"'
          (content.toList.flatMap escapeChar ++ '"' :: rest) := by
      simp [scanLexeme]
    rw [quotes, scanString, body]
    simp

end Scan

/-- The column of the closing quote is the number of characters up to it. -/
theorem Print.coveredText_quote (content : String) (rest : List Char) :
    (⟨.first, ⟨1, (quote content).length⟩⟩ : Span).coveredText
        ((quote content).toList ++ rest) = (quote content).toList := by
  let front := '"' :: content.toList.flatMap escapeChar
  have divided : (quote content).toList = front ++ ['"'] :=
    toList_quote content
  have frontLine : '\n' ∉ front := fun member =>
    not_mem_quote content (divided ▸ List.mem_append_left _ member)
  have closing : Position.behind front = ⟨1, (quote content).length⟩ := by
    rw [← List.nil_append front, Position.behind_append,
      Position.advance_of_no_feed _ frontLine, ← String.length_toList, divided,
      List.length_append, Nat.add_comm]
    rfl
  have covered := Span.coveredText_eq [] front rest '"'
  rw [List.nil_append, List.nil_append, closing] at covered
  rw [divided]
  exact covered

open Print in
/-- Printed strings lex back. A quoted text makes up one token, whose content is
the text, and nothing is wrong with it. Whatever stands behind it, this is the
first token, it covers the quoted text up to the closing quote and no more, and
scanning goes on behind the quote. -/
theorem SourceText.scan_quote (name content : String) :
    let size := (quote content).length
    let token : Token := ⟨.string content, ⟨.first, ⟨1, size⟩⟩⟩
    SourceText.scan ⟨name, quote content⟩ =
        ⟨[token, ⟨.endOfFile, .point ⟨1, size + 1⟩⟩], .empty⟩ ∧
      ∀ rest : String,
        let source : SourceText := ⟨name, quote content ++ rest⟩
        source.scan =
            (Scan.scanFrom source (size + rest.length) ⟨1, size + 1⟩ rest.toList
              .empty).prepend [token] ∧
          token.span.coveredText source.text.toList =
            (quote content).toList := by
  intro size token
  have length : (quote content).toList.length = size := String.length_toList
  have oneLine := not_mem_quote content
  have nonempty : (quote content).toList ≠ [] := by
    rw [toList_quote]
    exact List.cons_ne_nil _ _
  have reached : Position.first.advance (quote content).toList =
      ⟨1, size + 1⟩ := by
    rw [Position.advance_of_no_feed _ oneLine, length, Nat.add_comm]
    rfl
  have reads (source : SourceText) (bound : Nat) (rest : List Char) :
      Scan.scanFrom source (bound + 1) .first ((quote content).toList ++ rest)
          .empty =
        (Scan.scanFrom source bound ⟨1, size + 1⟩ rest .empty).prepend
          [token] := by
    have step := Scan.ReadAs.scanFrom_munches
      (Scan.munches_quote content rest) source bound .first
      (show Diagnostics.empty.isFull = false from rfl)
    rw [← toList_quote, Scan.spanTo_first oneLine nonempty, reached, length]
      at step
    rw [toList_quote]
    exact step
  constructor
  case left =>
    have whole := reads ⟨name, quote content⟩ size []
    rw [List.append_nil, Scan.scanFrom_nil] at whole
    rw [SourceText.scan]
    dsimp only
    rw [length, whole]
    rfl
  case right =>
    intro rest source
    have text : source.text.toList = (quote content).toList ++ rest.toList :=
      String.toList_append
    constructor
    · rw [SourceText.scan]
      simp only [text, List.length_append, length, String.length_toList]
      exact reads source (size + rest.length) rest.toList
    · rw [text]
      exact coveredText_quote content rest.toList

end PluginSurface
