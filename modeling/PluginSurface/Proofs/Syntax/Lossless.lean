import PluginSurface.Proofs.Syntax.Lexemes
import PluginSurface.Proofs.Syntax.Trivia

/-!
# Nothing is lost between a text and its tokens

Tokens stand in a text one behind another, and errors stand in it too. If there
is no error, the text is divided into the characters of the tokens, each of which
says by itself what the token is, and blanks and comments.
-/

namespace PluginSurface

/-! ## Places in a text -/

/-- A place of a text, which is the position behind what stands before it. -/
def Position.IsIn (position : Position) (text : List Char) : Prop :=
  ∃ before rest, text = before ++ rest ∧ position = .behind before

/-- A token starts at a place of a text from which on its kind is read. At the
end of the tokens nothing needs to be read. -/
def Token.IsIn (token : Token) (text : List Char) : Prop :=
  ∃ before rest, text = before ++ rest ∧ token.span.start = .behind before ∧
    (token.kind = .endOfFile ∨ ∃ char more, rest = char :: more ∧
      (Scan.scanLexeme (.behind before) char more).kind = some token.kind)

/-- An error starts at a place of a text and shows the line around it. -/
def Diagnostic.IsIn (error : Diagnostic) (text : List Char) : Prop :=
  ∃ before rest, text = before ++ rest ∧
    error.span.start = .behind before ∧
    error.sourceLine = lineAround before rest

/-- Some characters are the text of one token. -/
def TokenKind.IsSpelled (kind : TokenKind) (chars : List Char) : Prop :=
  ∀ name, (SourceText.scan ⟨name, String.ofList chars⟩).diagnostics = .empty ∧
    (SourceText.scan ⟨name, String.ofList chars⟩).tokens.map Token.kind =
      [kind, .endOfFile]

theorem Position.IsWithin.isIn {place : Position} {before chars : List Char}
    (within : (Position.behind before).IsWithin chars place) :
    place.IsIn (before ++ chars) := by
  obtain ⟨taken, ⟨rest, rfl⟩, rfl⟩ := within
  exact ⟨before ++ taken, rest, (List.append_assoc _ _ _).symm,
    (behind_append before taken).symm⟩

theorem SyntaxFault.diagnostic_isIn {source : SourceText} {span : Span}
    (isIn : span.start.IsIn source.text.toList) (fault : SyntaxFault) :
    (fault.diagnostic source span).IsIn source.text.toList := by
  obtain ⟨before, rest, divided, same⟩ := isIn
  refine ⟨before, rest, divided, same, ?_⟩
  rw [← SourceText.lineText_behind divided, ← same]
  rfl

namespace Scan

/-! ## Faults that are reported -/

theorem mem_errors_push {diagnostics : Diagnostics} {error pushed : Diagnostic}
    (member : error ∈ (diagnostics.push pushed).errors) :
    error ∈ diagnostics.errors ∨ error = pushed := by
  unfold Diagnostics.push at member
  dsimp only at member
  split at member
  · simpa using member
  · exact .inl member

theorem mem_errors_report {source : SourceText} {diagnostics : Diagnostics}
    {faults : List (SyntaxFault × Span)}
    (areIn : ∀ fault ∈ faults, fault.2.start.IsIn source.text.toList)
    {error : Diagnostic}
    (member : error ∈ (report source diagnostics faults).errors) :
    error ∈ diagnostics.errors ∨ error.IsIn source.text.toList := by
  induction faults generalizing diagnostics with
  | nil => exact .inl member
  | cons fault faults inductionHypothesis =>
      obtain ⟨isIn, areIn⟩ := List.forall_mem_cons.mp areIn
      rcases inductionHypothesis areIn member with earlier | further
      · rcases mem_errors_push earlier with earlier | rfl
        · exact .inl earlier
        · exact .inr (SyntaxFault.diagnostic_isIn isIn fault.1)
      · exact .inr further

/-! ## Tokens one behind another -/

/-- The tokens of a result stand in a text from a position on, each behind the
one before it, and so do the errors that are new. -/
structure Result.IsIn (result : Result) (text : List Char) (position : Position)
    (diagnostics : Diagnostics) : Prop where
  ends : ∃ tokens finish, result.tokens = tokens ++ [finish] ∧
    finish.kind = .endOfFile ∧ ∀ token ∈ tokens, token.kind ≠ .endOfFile
  tokens : ∀ token ∈ result.tokens, token.IsIn text
  behind : ∀ token ∈ result.tokens, position ≤ token.span.start
  ordered : result.tokens.Pairwise fun left right =>
    left.span.start < right.span.start
  errors : ∀ error ∈ result.diagnostics.errors,
    error ∈ diagnostics.errors ∨ error.IsIn text

namespace Result.IsIn

variable {result : Result} {text : List Char} {position : Position}
  {diagnostics : Diagnostics}

theorem finish {before rest : List Char} (divided : text = before ++ rest) :
    (Scan.finish (.behind before) diagnostics).IsIn text (.behind before)
      diagnostics where
  ends := ⟨[], _, rfl, rfl, by simp⟩
  tokens token member := by
    cases List.mem_singleton.mp member
    exact ⟨before, rest, divided, rfl, .inl rfl⟩
  behind token member := by
    cases List.mem_singleton.mp member
    exact le_refl _
  ordered := List.pairwise_singleton _ _
  errors error member := .inl member

theorem from_earlier {earlier : Position} (isIn : result.IsIn text position
    diagnostics) (le : earlier ≤ position) :
    result.IsIn text earlier diagnostics :=
  { isIn with behind := fun token member =>
      le.trans (isIn.behind token member) }

theorem of_report {source : SourceText} {faults : List (SyntaxFault × Span)}
    (isIn : result.IsIn source.text.toList position
      (report source diagnostics faults))
    (areIn : ∀ fault ∈ faults, fault.2.start.IsIn source.text.toList) :
    result.IsIn source.text.toList position diagnostics :=
  { isIn with errors := fun error member =>
      (isIn.errors error member).elim (mem_errors_report areIn) .inr }

theorem cons {token : Token} (isIn : result.IsIn text position diagnostics)
    (isPiece : token.kind ≠ .endOfFile) (stands : token.IsIn text)
    (before : token.span.start < position) :
    Result.IsIn { result with tokens := token :: result.tokens } text
      token.span.start diagnostics where
  ends := by
    obtain ⟨tokens, finish, same, isEnd, arePieces⟩ := isIn.ends
    refine ⟨token :: tokens, finish, congrArg (token :: ·) same, isEnd, ?_⟩
    exact List.forall_mem_cons.mpr ⟨isPiece, arePieces⟩
  tokens := List.forall_mem_cons.mpr ⟨stands, isIn.tokens⟩
  behind := List.forall_mem_cons.mpr ⟨le_refl _, fun later member =>
    (before.trans_le (isIn.behind later member)).le⟩
  ordered := List.pairwise_cons.mpr ⟨fun later member =>
    before.trans_le (isIn.behind later member), isIn.ordered⟩
  errors := isIn.errors

end Result.IsIn

/-! ### One step -/

theorem unclosed_isIn {before chars : List Char} {span : Span}
    (unclosed : (skipTrivia .blank (.behind before) chars).unclosed =
      some span) : span.start.IsIn (before ++ chars) :=
  Position.IsWithin.isIn ((unclosed_skipTrivia unclosed).resolve_left (by simp))

namespace Lexeme.FoundIn

variable {lexeme : Lexeme} {before chars : List Char}

theorem faults (found : lexeme.FoundIn (.behind before) chars) :
    ∀ fault ∈ lexeme.faults, fault.2.start.IsIn (before ++ chars) :=
  fun fault member => (found.located fault member).isIn

theorem onward (found : lexeme.FoundIn (.behind before) chars) :
    Position.behind before <
      .behind (before ++ chars.take lexeme.size) := by
  refine Position.behind_lt_append before (List.length_pos_iff.mp ?_)
  rw [List.length_take]
  exact Nat.lt_min.mpr ⟨found.takes, Nat.lt_of_lt_of_le found.takes found.fits⟩

end Lexeme.FoundIn

theorem scanFrom_isIn (source : SourceText) (bound : Nat)
    {before chars : List Char} (divided : source.text.toList = before ++ chars)
    (diagnostics : Diagnostics) :
    (scanFrom source bound (.behind before) chars diagnostics).IsIn
      source.text.toList (.behind before) diagnostics := by
  induction bound generalizing before chars diagnostics with
  | zero => exact .finish divided
  | succ bound inductionHypothesis =>
      unfold scanFrom
      extract_lets trivia reported
      have ofReported {result : Result} {position : Position}
          (isIn : result.IsIn source.text.toList position reported) :
          result.IsIn source.text.toList position diagnostics := by
        unfold reported at isIn
        split at isIn
        · next span unclosed =>
            refine isIn.of_report fun fault member => ?_
            cases List.mem_singleton.mp member
            exact divided ▸ unclosed_isIn unclosed
        · exact isIn
      obtain ⟨gap, skipped, reached, -⟩ :
          trivia.Leaves .blank (.behind before) chars :=
        skipTrivia_leaves .blank (.behind before) chars
      rw [← Position.behind_append] at reached
      rw [skipped, ← List.append_assoc] at divided
      refine (ofReported ?_).from_earlier (Position.behind_le_append before gap)
      clear ofReported
      clear_value trivia reported
      rw [reached]
      split
      · next isEnd => exact .finish divided
      next char rest isRest =>
      split
      · exact .finish divided
      rw [isRest] at divided
      have found := scanLexeme_foundIn (.behind (before ++ gap)) char rest
      have areIn := found.faults
      rw [← divided] at areIn
      dsimp only
      rw [← Position.behind_append]
      -- The scan goes on where the lexeme ends.
      have further := divided
      rw [← List.take_append_drop (scanLexeme _ char rest).size (char :: rest),
        ← List.append_assoc] at further
      split
      · exact ((inductionHypothesis further _).from_earlier
          found.onward.le).of_report areIn
      next kind given =>
      refine .of_report (.cons ?_ ?_ ⟨before ++ gap, _, divided, rfl,
        .inr ⟨char, rest, rfl, given⟩⟩ found.onward) areIn
      · split
        · exact .finish further
        · exact inductionHypothesis further _
      · rintro rfl
        exact found.isPiece given

end Scan

/-! ## Texts without errors -/

/-- Where something is split at all that is covered, what stands before covered
pieces is a run of its own. Nothing stands between the pieces. -/
theorem splitOnP_between {Piece : Type} {covered : Piece → Bool}
    {gap pieces : List Piece} (outside : ∀ piece ∈ gap, covered piece = false)
    (inside : ∀ piece ∈ pieces, covered piece = true) (nonempty : pieces ≠ [])
    (rest : List Piece) :
    ∃ nothing, (∀ run ∈ nothing, run = []) ∧
      (gap ++ (pieces ++ rest)).splitOnP covered =
        gap :: nothing ++ rest.splitOnP covered := by
  induction pieces generalizing gap with
  | nil => exact absurd rfl nonempty
  | cons piece pieces inductionHypothesis =>
      obtain ⟨isInside, inside⟩ := List.forall_mem_cons.mp inside
      rw [List.cons_append,
        List.splitOnP_append_cons_of_forall_mem outside _ isInside]
      cases pieces with
      | nil => exact ⟨[], by simp, rfl⟩
      | cons next pieces =>
          obtain ⟨nothing, areEmpty, split⟩ :=
            inductionHypothesis (List.forall_mem_nil _) inside (by simp)
          rw [List.nil_append] at split
          exact ⟨[] :: nothing, List.forall_mem_cons.mpr ⟨rfl, areEmpty⟩,
            congrArg _ split⟩

/-- Some text, behind some other one, consists of the characters of tokens, each
of which says by itself what the token is, and of blanks and comments. -/
inductive Lexed : List Char → List Char → List Token → Prop where
  | finish {before gap : List Char} (trivia : IsTrivia True gap) :
      Lexed before gap []
  | token {before gap chars rest : List Char} {last : Char} {kind : TokenKind}
      {tokens : List Token} (trivia : IsTrivia False gap)
      (spelled : kind.IsSpelled (chars ++ [last]))
      (further : Lexed (before ++ gap ++ (chars ++ [last])) rest tokens) :
      Lexed before (gap ++ ((chars ++ [last]) ++ rest))
        (⟨kind, .behind (before ++ gap), .behind (before ++ gap ++ chars)⟩ ::
          tokens)

namespace Scan

theorem spanTo_behind (before chars : List Char) {last : Char}
    (noFeed : last ≠ '\n') :
    spanTo (.behind before) (.behind (before ++ (chars ++ [last]))) =
      ⟨.behind before, .behind (before ++ chars)⟩ := by
  rw [spanTo, ← List.append_assoc, Position.behind_append_singleton,
    Position.after, if_neg noFeed]
  simp [Position.lastBefore, Position.behind]

/-- A lexeme that stands alone is the text of one token. -/
theorem isSpelled_of_alone {char : Char} {front : List Char} {kind : TokenKind}
    (starts : StartsLexeme (char :: front))
    (alone : ∀ start, scanLexeme start char front =
      ⟨front.length + 1, some kind, []⟩) :
    kind.IsSpelled (char :: front) := by
  intro name
  have scanned : SourceText.scan ⟨name, String.ofList (char :: front)⟩ =
      ⟨[⟨kind, spanTo .first (Position.first.advance (char :: front))⟩,
        ⟨.endOfFile, .point (Position.first.advance (char :: front))⟩],
        .empty⟩ := by
    have atEnd (position : Position) : skipTrivia .blank position [] =
        ⟨position, [], none⟩ := by
      simp [skipTrivia]
    rw [SourceText.scan, String.toList_ofList, scanFrom, starts.skipTrivia]
    simp only [alone, report, List.foldl_nil, List.take_succ_cons,
      List.take_length, List.drop_succ_cons, List.drop_length]
    rw [List.length_cons, scanFrom, atEnd]
    rfl
  rw [scanned]
  exact ⟨rfl, rfl⟩

theorem scanFrom_lexed {source : SourceText} {bound : Nat}
    {before chars : List Char} {diagnostics : Diagnostics}
    (enough : chars.length < bound)
    (clean : (scanFrom source bound (.behind before) chars
      diagnostics).diagnostics.hasErrors = false) :
    ∃ tokens finish,
      (scanFrom source bound (.behind before) chars diagnostics).tokens =
        tokens ++ [finish] ∧ Lexed before chars tokens := by
  induction bound generalizing before chars diagnostics with
  | zero => cases enough
  | succ bound inductionHypothesis =>
      have step := scanFrom_cleanStep clean
      obtain ⟨gap, skipped, reached, trivia⟩ :=
        skipTrivia_leaves .blank (.behind before) chars
      rw [← Position.behind_append] at reached
      generalize scanFrom source (bound + 1) (.behind before) chars
        diagnostics = result at clean step ⊢
      generalize skipTrivia .blank (.behind before) chars = behindGap
        at step skipped reached trivia
      cases step with
      | finish =>
          refine ⟨[], _, rfl, ?_⟩
          rw [skipped, List.append_nil]
          exact .finish (by simpa [TriviaMode.opening] using (trivia rfl).1)
      | @token start char front more kind noFeed alone result further =>
          subst reached
          obtain ⟨isGap, starts⟩ := trivia rfl
          have spelled := isSpelled_of_alone
            (starts (List.cons_ne_nil _ _)).front alone
          obtain ⟨initial, last, same⟩ : ∃ initial last,
              char :: front = initial ++ [last] :=
            ⟨_, _, (List.dropLast_append_getLast (List.cons_ne_nil _ _)).symm⟩
          have shorter : more.length < bound := by
            rw [skipped] at enough
            simp at enough
            omega
          rw [same, ← Position.behind_append] at further
          rw [same] at noFeed spelled
          rw [List.getLast?_concat] at noFeed
          subst further
          obtain ⟨tokens, finish, read, lexed⟩ :=
            inductionHypothesis shorter clean
          refine ⟨_ :: tokens, finish, congrArg _ read, ?_⟩
          rw [skipped, ← List.cons_append, same, ← Position.behind_append,
            spanTo_behind _ _ fun isFeed => noFeed (congrArg some isFeed)]
          refine .token ?_ spelled lexed
          simpa [TriviaMode.opening] using isGap

end Scan

namespace Lexed

variable {before chars : List Char} {tokens : List Token}

theorem behind (lexed : Lexed before chars tokens) :
    ∀ token ∈ tokens, Position.behind before ≤ token.span.start := by
  induction lexed with
  | finish trivia => simp
  | @token before gap chars rest last kind tokens trivia spelled further
      inductionHypothesis =>
      refine List.forall_mem_cons.mpr ⟨Position.behind_le_append before gap, ?_⟩
      intro token member
      have onward := inductionHypothesis token member
      rw [List.append_assoc] at onward
      exact (Position.behind_le_append before _).trans onward

/-- Tokens with nothing wrong have no position in common. -/
theorem disjoint (lexed : Lexed before chars tokens) :
    tokens.Pairwise fun left right =>
      ∀ position, ¬(left.span.Covers position ∧ right.span.Covers position) := by
  induction lexed with
  | finish trivia => exact List.Pairwise.nil
  | @token before gap chars rest last kind tokens trivia spelled further
      inductionHypothesis =>
      refine List.pairwise_cons.mpr ⟨fun later member position => ?_,
        inductionHypothesis⟩
      rintro ⟨⟨-, upTo⟩, from_, -⟩
      have onward := further.behind later member
      have gapBetween := Position.behind_lt_append (before ++ gap ++ chars)
        (List.cons_ne_nil last [])
      rw [List.append_assoc _ chars] at gapBetween
      exact (from_.trans upTo).not_gt (gapBetween.trans_le onward)

theorem spelled (lexed : Lexed before chars tokens) :
    ∀ token ∈ tokens,
      token.kind.IsSpelled (token.span.coveredText (before ++ chars)) := by
  induction lexed with
  | finish trivia => simp
  | @token before gap chars rest last kind tokens trivia spelled further
      inductionHypothesis =>
      rw [← List.append_assoc, ← List.append_assoc]
      refine List.forall_mem_cons.mpr ⟨?_, inductionHypothesis⟩
      rw [Span.coveredText_eq (before ++ gap) chars rest last]
      exact spelled

section

variable {gap rest : List Char} {last : Char} {kind : TokenKind}
  {covered : Position × Char → Bool}

/-- Of a text that starts with a token, the token covers its own characters, and
what the other tokens cover stands behind it. -/
theorem covers_parts
    (further : Lexed (before ++ gap ++ (chars ++ [last])) rest tokens)
    (covers : ∀ place ∈ placedBehind before (gap ++ ((chars ++ [last]) ++ rest)),
      (covered place = true ↔ ∃ token ∈ (⟨kind, .behind (before ++ gap),
        .behind (before ++ gap ++ chars)⟩ : Token) :: tokens,
          token.span.Covers place.1)) :
    (∀ place ∈ placedBehind before gap, covered place = false) ∧
    (∀ place ∈ placedBehind (before ++ gap) (chars ++ [last]),
      covered place = true) ∧
    ∀ place ∈ placedBehind (before ++ gap ++ (chars ++ [last])) rest,
      (covered place = true ↔
        ∃ token ∈ tokens, token.span.Covers place.1) := by
  rw [placedBehind_append, placedBehind_append, List.forall_mem_append,
    List.forall_mem_append] at covers
  obtain ⟨inGap, inToken, inRest⟩ := covers
  refine ⟨fun place member => ?_, fun place member => ?_,
    fun place member => ?_⟩
  · refine Bool.eq_false_iff.mpr fun isCovered => ?_
    obtain ⟨token, isToken, reaches, -⟩ := (inGap place member).mp isCovered
    have onward : Position.behind (before ++ gap) ≤ token.span.start := by
      rcases List.mem_cons.mp isToken with rfl | isLater
      · exact le_refl _
      · exact (Position.behind_le_append _ _).trans
          (further.behind token isLater)
    exact (onward.trans reaches).not_gt (bounds_of_mem_placedBehind member).2
  · exact (inToken place member).mpr
      ⟨_, List.mem_cons_self, Span.covers_of_mem member⟩
  · rw [inRest place member, List.exists_mem_cons_iff]
    refine or_iff_right fun covers => ?_
    have onward := Position.behind_lt_append (before ++ gap ++ chars)
      (List.cons_ne_nil last [])
    rw [List.append_assoc _ chars] at onward
    exact covers.2.not_gt
      (onward.trans_le (bounds_of_mem_placedBehind member).1)

end

/-- What no token covers are blanks and comments. -/
theorem outside (lexed : Lexed before chars tokens)
    {covered : Position × Char → Bool}
    (covers : ∀ place ∈ placedBehind before chars,
      (covered place = true ↔
        ∃ token ∈ tokens, token.span.Covers place.1)) :
    ∃ runs final, (placedBehind before chars).splitOnP covered =
        runs ++ [final] ∧
      (∀ run ∈ runs, IsTrivia False (run.map Prod.snd)) ∧
      IsTrivia True (final.map Prod.snd) := by
  induction lexed generalizing covered with
  | @finish before gap trivia =>
      have none : ∀ place ∈ placedBehind before gap, covered place = false :=
        fun place member => Bool.eq_false_iff.mpr fun isCovered => by
          simpa using (covers place member).mp isCovered
      refine ⟨[], _, List.splitOnP_eq_singleton none, by simp, ?_⟩
      rwa [map_snd_placedBehind]
  | @token before gap chars rest last kind tokens trivia spelled further
      inductionHypothesis =>
      obtain ⟨inGap, inToken, inRest⟩ := further.covers_parts covers
      obtain ⟨runs, final, split, areTrivia, isTrivia⟩ :=
        inductionHypothesis inRest
      obtain ⟨nothing, areEmpty, whole⟩ := splitOnP_between inGap inToken
        (by simp [placedBehind])
        (placedBehind (before ++ gap ++ (chars ++ [last])) rest)
      refine ⟨placedBehind before gap :: nothing ++ runs, final, ?_, ?_,
        isTrivia⟩
      · rw [placedBehind_append, placedBehind_append, whole, split,
          List.append_assoc]
      · intro run member
        rcases List.mem_append.mp member with isEarly | isLater
        · rcases List.mem_cons.mp isEarly with rfl | isEmpty
          · rwa [map_snd_placedBehind]
          · rw [areEmpty run isEmpty]
            exact .nil
        · exact areTrivia run isLater

end Lexed

theorem SourceText.scan_lexed {source : SourceText}
    (clean : source.scan.diagnostics.hasErrors = false) :
    ∃ tokens finish, source.scan.tokens = tokens ++ [finish] ∧
      Lexed [] source.text.toList tokens := by
  have start : Position.first = .behind [] := rfl
  unfold scan at clean ⊢
  rw [start] at clean ⊢
  exact Scan.scanFrom_lexed (Nat.lt_succ_self _) clean

/-- Scanning is lossless and its positions are true. Every text gives tokens
that end with the only mark of the end and start at places of the text, each
behind the one before it, and errors that start at places of the text and show
the lines of these. If there is no error, no two tokens cover a position
together, all that no token covers are blanks and comments, and what a token
covers says by itself what the token is. -/
theorem SourceText.scan_lossless (source : SourceText) :
    ∃ tokens finish, source.scan.tokens = tokens ++ [finish] ∧
      finish.kind = .endOfFile ∧
      (∀ token ∈ tokens, token.kind ≠ .endOfFile) ∧
      (∀ token ∈ source.scan.tokens, token.IsIn source.text.toList) ∧
      source.scan.tokens.Pairwise (fun left right =>
        left.span.start < right.span.start) ∧
      (∀ error ∈ source.scan.diagnostics.errors,
        error.IsIn source.text.toList) ∧
      (source.scan.diagnostics.hasErrors = false →
        (tokens.Pairwise fun left right => ∀ position,
          ¬(left.span.Covers position ∧ right.span.Covers position)) ∧
        (∃ runs final,
          (placed source.text.toList).splitOnP (fun place =>
            ∃ token ∈ tokens, token.span.Covers place.1) = runs ++ [final] ∧
          (∀ run ∈ runs, IsTrivia False (run.map Prod.snd)) ∧
          IsTrivia True (final.map Prod.snd)) ∧
        ∀ token ∈ tokens,
          token.kind.IsSpelled
            (token.span.coveredText source.text.toList)) := by
  have isIn : source.scan.IsIn source.text.toList (.behind []) .empty :=
    Scan.scanFrom_isIn source _ (List.nil_append _).symm .empty
  obtain ⟨tokens, finish, same, isEnd, arePieces⟩ := isIn.ends
  refine ⟨tokens, finish, same, isEnd, arePieces, isIn.tokens, isIn.ordered,
    fun error member => ?_, fun clean => ?_⟩
  · exact (isIn.errors error member).resolve_left List.not_mem_nil
  · obtain ⟨_, _, other, lexed⟩ := scan_lexed clean
    obtain ⟨rfl, _⟩ := List.append_inj' (same.symm.trans other) rfl
    exact ⟨lexed.disjoint, lexed.outside fun place member => by simp,
      lexed.spelled⟩

/-- A template goes on past the end of its line, and a column is a character. -/
example : (SourceText.scan ⟨"a.ts", "x =\n\x60é\n\x60 ; // y"⟩).tokens.map
    Token.span =
      [⟨⟨1, 1⟩, ⟨1, 1⟩⟩, ⟨⟨1, 3⟩, ⟨1, 3⟩⟩, ⟨⟨2, 1⟩, ⟨3, 1⟩⟩,
        ⟨⟨3, 3⟩, ⟨3, 3⟩⟩, ⟨⟨3, 9⟩, ⟨3, 9⟩⟩] := by
  decide

end PluginSurface
