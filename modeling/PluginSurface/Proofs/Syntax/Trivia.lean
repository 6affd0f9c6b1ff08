import Mathlib.Data.List.Infix
import PluginSurface.Proofs.Source.Positions

/-!
# Blanks and comments

What a scanner skips is a front of the text that consists of blanks and
comments, unless a comment is not closed, and a lexeme starts where it stops.
-/

namespace PluginSurface

/-- Blanks and comments. Only at the end of a text may the line feed behind a
comment be missing. -/
inductive IsTrivia (atEnd : Prop) : List Char → Prop where
  | nil : IsTrivia atEnd []
  | blank {char : Char} {rest : List Char} (isBlank : Scan.isBlank char = true)
      (further : IsTrivia atEnd rest) : IsTrivia atEnd (char :: rest)
  | lineComment {body rest : List Char} (onLine : '\n' ∉ body)
      (further : IsTrivia atEnd rest) :
      IsTrivia atEnd ('/' :: '/' :: (body ++ '\n' :: rest))
  | lastComment {body : List Char} (isEnd : atEnd) (onLine : '\n' ∉ body) :
      IsTrivia atEnd ('/' :: '/' :: body)
  | blockComment {body rest : List Char} (isOpen : ¬['*', '/'] <:+: body)
      (further : IsTrivia atEnd rest) :
      IsTrivia atEnd ('/' :: '*' :: (body ++ '*' :: '/' :: rest))

namespace Scan

/-! ## Blanks and comments -/

/-- What has been read of a comment that is being skipped. -/
def TriviaMode.opening : TriviaMode → List Char
  | blank => []
  | lineComment => ['/', '/']
  | blockComment _ => ['/', '*']

/-- A text that starts with no blank and no comment. -/
def StartsLexeme (chars : List Char) : Prop :=
  ∃ char rest, chars = char :: rest ∧ isBlank char = false ∧
    ¬(char = '/' ∧ (rest.head? = some '/' ∨ rest.head? = some '*'))

/-- What has been skipped is a front of the text, and if every comment in it is
closed, it consists of blanks and comments. -/
def Trivia.Leaves (trivia : Trivia) (mode : TriviaMode) (position : Position)
    (chars : List Char) : Prop :=
  ∃ gap, chars = gap ++ trivia.rest ∧
    trivia.position = position.advance gap ∧
    (trivia.unclosed = none →
      IsTrivia (trivia.rest = []) (mode.opening ++ gap) ∧
        (trivia.rest ≠ [] → StartsLexeme trivia.rest))

theorem Trivia.Leaves.consume {trivia : Trivia} {mode next : TriviaMode}
    {position : Position} {rest : List Char} (taken : List Char)
    (leaves : trivia.Leaves next (position.advance taken) rest)
    (reads : ∀ gap atEnd, rest = gap ++ trivia.rest →
      IsTrivia atEnd (next.opening ++ gap) →
        IsTrivia atEnd (mode.opening ++ (taken ++ gap))) :
    trivia.Leaves mode position (taken ++ rest) := by
  obtain ⟨gap, divided, reached, closed⟩ := leaves
  refine ⟨taken ++ gap, ?_, ?_, fun isClosed => ?_⟩
  · rw [List.append_assoc, ← divided]
  · simpa [Position.advance] using reached
  · exact ⟨reads gap _ divided (closed isClosed).1, (closed isClosed).2⟩

theorem IsTrivia.commentLine {atEnd : Prop} {char : Char} {gap : List Char}
    (onLine : char ≠ '\n') (trivia : IsTrivia atEnd ('/' :: '/' :: gap)) :
    IsTrivia atEnd ('/' :: '/' :: char :: gap) := by
  cases trivia with
  | blank isBlank => exact absurd isBlank (by decide)
  | @lineComment body rest onBody further =>
      have onBoth : '\n' ∉ char :: body := by
        simpa [onBody] using onLine.symm
      exact .lineComment onBoth further
  | lastComment isEnd onBody =>
      exact .lastComment isEnd (by simpa [onBody] using onLine.symm)

theorem IsTrivia.commentBlock {atEnd : Prop} {char : Char} {gap : List Char}
    (isOpen : ¬(char = '*' ∧ gap.head? = some '/'))
    (trivia : IsTrivia atEnd ('/' :: '*' :: gap)) :
    IsTrivia atEnd ('/' :: '*' :: char :: gap) := by
  cases trivia with
  | blank isBlank => exact absurd isBlank (by decide)
  | @blockComment body rest bodyOpen further =>
      have bothOpen : ¬['*', '/'] <:+: char :: body := by
        rw [List.infix_cons_iff, not_or]
        refine ⟨fun closes => isOpen ?_, bodyOpen⟩
        obtain ⟨behind, same⟩ := closes
        cases same
        exact ⟨rfl, rfl⟩
      exact .blockComment bothOpen further

theorem skipTrivia_leaves (mode : TriviaMode) (position : Position)
    (chars : List Char) :
    (skipTrivia mode position chars).Leaves mode position chars := by
  fun_induction skipTrivia mode position chars with
  | case1 position rest inductionHypothesis =>
      exact inductionHypothesis.consume ['/', '/'] fun _ _ _ trivia => trivia
  | case2 position rest inductionHypothesis =>
      exact inductionHypothesis.consume ['/', '*'] fun _ _ _ trivia => trivia
  | case3 position char rest notLine notBlock isBlank inductionHypothesis =>
      exact inductionHypothesis.consume [char] fun _ _ _ trivia =>
        .blank isBlank trivia
  | case4 position char rest notLine notBlock notBlank =>
      refine ⟨[], rfl, rfl, fun _ => ⟨.nil, fun _ =>
        ⟨char, rest, rfl, Bool.eq_false_iff.mpr notBlank, ?_⟩⟩⟩
      rintro ⟨isSlash, opens | opens⟩
      · obtain ⟨behind, same⟩ := List.head?_eq_some_iff.mp opens
        exact notLine behind isSlash same
      · obtain ⟨behind, same⟩ := List.head?_eq_some_iff.mp opens
        exact notBlock behind isSlash same
  | case5 position char rest inductionHypothesis =>
      refine inductionHypothesis.consume [char] fun gap atEnd _ trivia => ?_
      by_cases isFeed : char = '\n'
      · subst isFeed
        exact .lineComment List.not_mem_nil trivia
      · rw [if_neg isFeed] at trivia
        exact IsTrivia.commentLine isFeed trivia
  | case6 start position rest inductionHypothesis =>
      exact inductionHypothesis.consume ['*', '/'] fun _ _ _ trivia =>
        .blockComment (by simp) trivia
  | case7 start position char rest notClosed inductionHypothesis =>
      refine inductionHypothesis.consume [char] fun gap atEnd divided trivia => ?_
      refine IsTrivia.commentBlock (fun ⟨isStar, closes⟩ => ?_) trivia
      obtain ⟨behind, same⟩ := List.head?_eq_some_iff.mp closes
      change gap = '/' :: behind at same
      rw [same] at divided
      exact notClosed _ isStar divided
  | case8 start position =>
      exact ⟨[], rfl, rfl, by simp⟩
  | case9 mode position notBlock =>
      refine ⟨[], rfl, rfl, fun _ => ⟨?_, by simp⟩⟩
      cases mode with
      | blank => exact .nil
      | lineComment => exact .lastComment rfl List.not_mem_nil
      | blockComment start => exact absurd rfl (notBlock start)

/-- A comment that is not closed starts in what is skipped, or before it. -/
theorem unclosed_skipTrivia {mode : TriviaMode} {position : Position}
    {chars : List Char} {span : Span}
    (unclosed : (skipTrivia mode position chars).unclosed = some span) :
    mode = .blockComment span.start ∨ position.IsWithin chars span.start := by
  fun_induction skipTrivia mode position chars with
  | case1 position rest inductionHypothesis =>
      have within := (inductionHypothesis unclosed).resolve_left (by simp)
      exact .inr (.behind ['/', '/'] within)
  | case2 position rest inductionHypothesis =>
      rcases inductionHypothesis unclosed with opens | within
      · cases opens
        exact .inr (.start _ _)
      · exact .inr (.behind ['/', '*'] within)
  | case3 position char rest _ _ _ inductionHypothesis =>
      have within := (inductionHypothesis unclosed).resolve_left (by simp)
      exact .inr (.behind [char] within)
  | case5 position char rest inductionHypothesis =>
      have within := (inductionHypothesis unclosed).resolve_left
        (by split <;> simp)
      exact .inr (.behind [char] within)
  | case6 start position rest inductionHypothesis =>
      have within := (inductionHypothesis unclosed).resolve_left (by simp)
      exact .inr (.behind ['*', '/'] within)
  | case7 start position char rest _ inductionHypothesis =>
      exact (inductionHypothesis unclosed).imp_right fun within =>
        .behind [char] within
  | case8 start position =>
      cases unclosed
      exact .inl rfl
  | _ => cases unclosed

theorem StartsLexeme.skipTrivia {chars : List Char} (starts : StartsLexeme chars)
    (position : Position) :
    skipTrivia .blank position chars = ⟨position, chars, none⟩ := by
  obtain ⟨char, rest, rfl, notBlank, notComment⟩ := starts
  rw [Scan.skipTrivia]
  · rw [notBlank]
    rfl
  · rintro behind rfl rfl
    exact notComment ⟨rfl, .inl rfl⟩
  · rintro behind rfl rfl
    exact notComment ⟨rfl, .inr rfl⟩

/-- Whether a lexeme starts somewhere can be seen on a part of the text. -/
theorem StartsLexeme.front {char : Char} {front more : List Char}
    (starts : StartsLexeme (char :: (front ++ more))) :
    StartsLexeme (char :: front) := by
  obtain ⟨_, _, ⟨⟩, notBlank, notComment⟩ := starts
  refine ⟨char, front, rfl, notBlank, fun comment => notComment ?_⟩
  cases front with
  | nil => simp at comment
  | cons next front => exact comment

end Scan

end PluginSurface
