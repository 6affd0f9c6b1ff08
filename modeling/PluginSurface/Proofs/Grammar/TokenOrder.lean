import Mathlib.Data.List.Chain
import PluginSurface.Proofs.Grammar.Progress
import PluginSurface.Proofs.Syntax.Lossless
import PluginSurface.Proofs.Syntax.Nesting

/-!
# Tokens in the order of the text

The tokens of a text stand one behind another, and a symbol has room for its
characters, so that each half of a symbol that is split has a place of its own.
A state in which this holds of what is left is tidy. Each elementary step of a
parser goes on from a tidy state to a tidy one, in which both the last consumed
token and the token at the front stand no earlier than before.
-/

namespace PluginSurface

/-! ## Tokens with room for their characters -/

/-- A token stops no earlier than it starts, and a symbol stands on one line
and is no longer than its span. -/
structure Token.IsProper (token : Token) : Prop where
  forward : token.span.start ≤ token.span.stop
  wide : ∀ mark, token.kind = .symbol mark →
    token.span.start.line = token.span.stop.line ∧
      token.span.start.column + mark.text.length ≤ token.span.stop.column + 1

/-- Spans one behind another. A span may stop where the next one starts. -/
def AreOrdered (spans : List Span) : Prop :=
  spans.IsChain fun left right => left.stop ≤ right.start

namespace AreOrdered

variable {first earlier next : Span} {spans : List Span}

theorem head_le (ordered : AreOrdered (first :: next :: spans)) :
    first.stop ≤ next.start :=
  (List.isChain_cons_cons.mp ordered).1

theorem tail (ordered : AreOrdered (first :: spans)) : AreOrdered spans :=
  List.IsChain.tail ordered

/-- The first span may stop earlier. -/
theorem from_earlier (ordered : AreOrdered (first :: spans))
    (le : earlier.stop ≤ first.stop) : AreOrdered (earlier :: spans) := by
  cases spans with
  | nil => exact .singleton _
  | cons next spans =>
      exact .cons_cons (le.trans ordered.head_le) ordered.tail

/-- A last span of no width may stand twice. -/
theorem concat_point {place : Position}
    (ordered : AreOrdered (spans ++ [.point place])) :
    AreOrdered (spans ++ [.point place, .point place]) := by
  unfold AreOrdered at ordered ⊢
  rw [List.isChain_append] at ordered ⊢
  exact ⟨ordered.1, .cons_cons (le_refl place) (.singleton _), ordered.2.2⟩

end AreOrdered

theorem Position.advance_of_not_mem {position : Position} {chars : List Char}
    (noFeed : '\n' ∉ chars) :
    position.advance chars =
      ⟨position.line, position.column + chars.length⟩ := by
  induction chars generalizing position with
  | nil => rfl
  | cons char chars inductionHypothesis =>
      rw [List.mem_cons, not_or] at noFeed
      have after : position.after char =
          ⟨position.line, position.column + 1⟩ := if_neg (Ne.symm noFeed.1)
      change (position.after char).advance chars = _
      rw [inductionHypothesis noFeed.2, after, List.length_cons,
        Nat.add_assoc, Nat.add_comm 1]

namespace Scan

/-- A lexeme that is a symbol takes the characters of the symbol. -/
theorem eq_text_of_scanLexeme {start : Position} {char : Char}
    {front : List Char} {mark : Symbol}
    (alone : scanLexeme start char front =
      ⟨front.length + 1, some (.symbol mark), []⟩) :
    char :: front = mark.text.toList := by
  have kind := congrArg Lexeme.kind alone
  have size := congrArg Lexeme.size alone
  unfold scanLexeme at kind size
  split at kind
  · cases kind
  split at kind
  · obtain ⟨text, ⟨value, found⟩ | ⟨value, found⟩⟩ :=
      scanNumber_kind start (char :: front)
    · cases found.symm.trans kind
    · cases found.symm.trans kind
  split at kind
  · simp only [TokenKind.ofWord] at kind
    split at kind <;> cases kind
  next noQuote noNumber noWord =>
  rw [if_neg noQuote, if_neg noNumber, if_neg noWord] at size
  split at kind
  · next symbol found =>
      cases kind
      rw [found] at size
      refine ((longestSymbol?_isPrefix found).eq_of_length ?_).symm
      rw [String.length_toList]
      exact size
  · cases kind

/-- A token that stands behind some text has room for its characters. -/
theorem isProper_of_alone {before initial : List Char} {char last : Char}
    {front : List Char} {kind : TokenKind}
    (divided : char :: front = initial ++ [last])
    (alone : ∀ other, scanLexeme other char front =
      ⟨front.length + 1, some kind, []⟩) :
    Token.IsProper
      ⟨kind, .behind before, .behind (before ++ initial)⟩ where
  forward := Position.behind_le_append before initial
  wide := by
    rintro mark rfl
    have text := eq_text_of_scanLexeme (alone .first)
    have noFeed := (longestSymbol?_text mark).2.2.1
    rw [← text, divided] at noFeed
    have noInitialFeed : '\n' ∉ initial := fun member =>
      noFeed (List.mem_append_left _ member)
    have length : mark.text.length = initial.length + 1 := by
      rw [← String.length_toList, ← text, divided, List.length_append]
      rfl
    simp only [Position.behind_append,
      Position.advance_of_not_mem noInitialFeed, length]
    exact ⟨trivial, Nat.le_refl _⟩

theorem isProper_finish (position : Position) :
    Token.IsProper ⟨.endOfFile, .point position⟩ where
  forward := le_refl position
  wide := nofun

/-- The tokens of a text without errors have room for their characters and
stand one behind another, up to the end of the file. -/
theorem scanFrom_areOrdered {source : SourceText} {bound : Nat}
    {before chars : List Char} {diagnostics : Diagnostics}
    (clean : (scanFrom source bound (.behind before) chars
      diagnostics).diagnostics.hasErrors = false) :
    ∃ tokens place,
      (scanFrom source bound (.behind before) chars diagnostics).tokens =
        tokens ++ [⟨.endOfFile, .point place⟩] ∧
      (∀ token ∈ tokens, token.IsProper) ∧
      AreOrdered (.point (.behind before) ::
        (tokens.map Token.span ++ [.point place])) := by
  induction bound generalizing before chars diagnostics with
  | zero =>
      refine ⟨[], _, rfl, nofun, ?_⟩
      exact .cons_cons (le_refl _) (.singleton _)
  | succ bound inductionHypothesis =>
      have step := scanFrom_cleanStep clean
      obtain ⟨gap, skipped, reached, -⟩ :
          (skipTrivia .blank (.behind before) chars).Leaves .blank
            (.behind before) chars :=
        skipTrivia_leaves .blank (.behind before) chars
      rw [← Position.behind_append] at reached
      have gapAfter := Position.behind_le_append before gap
      generalize scanFrom source (bound + 1) (.behind before) chars
        diagnostics = result at clean step ⊢
      generalize skipTrivia .blank (.behind before) chars = behindGap
        at step skipped reached
      cases step with
      | finish =>
          subst reached
          exact ⟨[], _, rfl, nofun, .cons_cons gapAfter (.singleton _)⟩
      | @token start char front more kind noFeed alone result further =>
          subst reached
          obtain ⟨initial, last, same⟩ : ∃ initial last,
              char :: front = initial ++ [last] :=
            ⟨_, _, (List.dropLast_append_getLast (List.cons_ne_nil _ _)).symm⟩
          rw [same, ← Position.behind_append] at further
          rw [same, List.getLast?_concat] at noFeed
          have lastOnLine : last ≠ '\n' := fun isFeed =>
            noFeed (congrArg some isFeed)
          subst further
          obtain ⟨tokens, place, read, proper, ordered⟩ :=
            inductionHypothesis clean
          dsimp only
          rw [same, ← Position.behind_append, spanTo_behind _ _ lastOnLine]
          refine ⟨_ :: tokens, place, congrArg _ read,
            List.forall_mem_cons.mpr ⟨isProper_of_alone same alone, proper⟩, ?_⟩
          refine .cons_cons gapAfter (ordered.from_earlier ?_)
          change Position.behind (before ++ gap ++ initial) ≤
            .behind (before ++ gap ++ (initial ++ [last]))
          rw [← List.append_assoc]
          exact Position.behind_le_append _ _

end Scan

namespace Grammar

/-! ## Tidy states -/

/-- The spans in front of a state and of what is left there, and the one behind
the last token. -/
def State.spans (state : State) : List Span :=
  state.previous :: (state.rest ++ [state.finish]).map Token.span

/-- A state in which the tokens that are left stand one behind another, behind
the one that was consumed last, and in which all nodes that are stored nest. -/
structure State.Tidy (state : State) : Prop where
  ends : state.Ends
  proper : ∀ token ∈ state.rest ++ [state.finish], token.IsProper
  previous : state.previous.start ≤ state.previous.stop
  ordered : AreOrdered state.spans
  nested : state.arena.Nested

theorem State.current_mem (state : State) :
    state.current ∈ state.rest ++ [state.finish] := by
  unfold State.current
  cases state.rest <;> simp

theorem State.spans_eq (state : State) :
    ∃ further, state.spans =
      state.previous :: state.current.span :: further := by
  unfold State.spans State.current
  cases state.rest with
  | nil => exact ⟨[], rfl⟩
  | cons token rest => exact ⟨_, rfl⟩

namespace State.Tidy

variable {state : State}

/-- The token at the front starts behind the last consumed one. -/
theorem previous_le_front (tidy : state.Tidy) :
    state.previous.stop ≤ state.current.span.start := by
  obtain ⟨further, same⟩ := state.spans_eq
  have ordered := tidy.ordered
  rw [same] at ordered
  exact ordered.head_le

theorem current_forward (tidy : state.Tidy) :
    state.current.span.start ≤ state.current.span.stop :=
  (tidy.proper _ state.current_mem).forward

theorem previous_le_current (tidy : state.Tidy) :
    state.previous ≤ state.current.span :=
  ⟨tidy.previous.trans tidy.previous_le_front,
    tidy.previous_le_front.trans tidy.current_forward⟩

end State.Tidy

/-- A state that a parser goes on to: it is tidy, nodes were only added, and
what was consumed last and what is at the front stand no earlier than before. If
a token was consumed, the one that was at the front is not behind the last
one. -/
structure State.Onto (state later : State) : Prop where
  tidy : later.Tidy
  arena : state.arena.Extends later.arena
  previous : state.previous ≤ later.previous
  current : state.current.span ≤ later.current.span
  taken : later.rest.length < state.rest.length →
    state.current.span ≤ later.previous

namespace State.Onto

variable {state later last : State}

theorem refl (tidy : state.Tidy) : state.Onto state where
  tidy := tidy
  arena := .refl _
  previous := le_refl _
  current := le_refl _
  taken shorter := absurd shorter (Nat.lt_irrefl _)

theorem trans (first : state.Onto later) (second : later.Onto last) :
    state.Onto last where
  tidy := second.tidy
  arena := first.arena.trans second.arena
  previous := first.previous.trans second.previous
  current := first.current.trans second.current
  taken shorter := by
    by_cases already : later.rest.length < state.rest.length
    · exact (first.taken already).trans second.previous
    · exact first.current.trans (second.taken (by omega))

end State.Onto

/-! ## Elementary steps -/

section

variable {state : State}

theorem State.Tidy.take (tidy : state.Tidy) {token : Token} {rest : List Token}
    (front : state.rest = token :: rest) :
    State.Tidy { state with rest := rest, previous := token.span } where
  ends := tidy.ends
  proper other member := by
    refine tidy.proper other ?_
    rw [front]
    exact List.mem_cons_of_mem _ member
  previous := by
    refine (tidy.proper token ?_).forward
    rw [front]
    exact List.mem_cons_self
  ordered := by
    have ordered := tidy.ordered
    rw [State.spans, front] at ordered
    exact ordered.tail
  nested := tidy.nested

/-- Taking the token at the front. -/
theorem State.Tidy.onto_take (tidy : state.Tidy) {token : Token}
    {rest : List Token} (front : state.rest = token :: rest) :
    state.Onto { state with rest := rest, previous := token.span } where
  tidy := tidy.take front
  arena := .refl _
  previous := by
    have le := tidy.previous_le_current
    rwa [State.current, front] at le
  current := by
    have le := (tidy.take front).previous_le_current
    rw [State.current, front]
    exact le
  taken _ := by
    rw [State.current, front]
    exact le_refl _

theorem State.Tidy.onto_advance (tidy : state.Tidy) :
    state.Onto state.advance := by
  unfold State.advance
  split
  · exact .refl tidy
  · next token rest front => exact tidy.onto_take front

theorem State.Tidy.onto_report (tidy : state.Tidy) (fault : SyntaxFault)
    (span : Span) : state.Onto (state.report fault span) where
  tidy := { tidy with }
  arena := .refl _
  previous := le_refl _
  current := le_refl _
  taken shorter := absurd shorter (Nat.lt_irrefl _)

theorem State.Tidy.onto_depth (tidy : state.Tidy) (depth : Nat) :
    state.Onto { state with depth := depth } where
  tidy := { tidy with }
  arena := .refl _
  previous := le_refl _
  current := le_refl _
  taken shorter := absurd shorter (Nat.lt_irrefl _)

/-- Half of a symbol has room for its characters if the symbol has. -/
theorem isProper_half {token : Token} (proper : token.IsProper)
    {mark half : Symbol} (found : token.kind = .symbol mark)
    (splits : afterAngle? mark = some half) :
    Token.IsProper ⟨.symbol half,
      ⟨⟨token.span.start.line, token.span.start.column + 1⟩,
        token.span.stop⟩⟩ := by
  obtain ⟨sameLine, room⟩ := proper.wide mark found
  have longer : mark.text.length = half.text.length + 1 ∧
      0 < half.text.length := by
    cases mark <;> cases splits <;> decide
  constructor
  · refine .inr ⟨sameLine, ?_⟩
    change token.span.start.column + 1 ≤ token.span.stop.column
    omega
  · rintro _ ⟨⟩
    refine ⟨sameLine, ?_⟩
    change token.span.start.column + 1 + half.text.length ≤
      token.span.stop.column + 1
    omega

/-- Taking a `>` off the symbol at the front. -/
theorem State.Tidy.onto_splitAngle (tidy : state.Tidy) {mark half : Symbol}
    (found : state.current.kind = .symbol mark)
    (splits : afterAngle? mark = some half) :
    state.Onto (splitAngle half state).2 := by
  unfold splitAngle
  split
  · exact .refl tidy
  next token rest front =>
  rw [State.current, front] at found
  have proper := tidy.proper token (by rw [front]; exact List.mem_cons_self)
  have ordered := tidy.ordered
  rw [State.spans, front] at ordered
  have later : token.span.start ≤
      ⟨token.span.start.line, token.span.start.column + 1⟩ :=
    .inr ⟨rfl, Nat.le_succ _⟩
  constructor
  case tidy =>
    constructor
    case ends => exact tidy.ends
    case proper =>
      refine List.forall_mem_cons.mpr ⟨isProper_half proper found splits, ?_⟩
      intro other member
      refine tidy.proper other ?_
      rw [front]
      exact List.mem_cons_of_mem _ member
    case previous => exact tidy.previous
    case ordered =>
      refine .cons_cons (ordered.head_le.trans later) ?_
      exact ordered.tail.from_earlier (le_refl token.span.stop)
    case nested => exact tidy.nested
  case arena => exact .refl _
  case previous => exact le_refl _
  case current =>
    rw [State.current, front]
    exact ⟨later, le_refl token.span.stop⟩
  case taken =>
    intro shorter
    rw [front] at shorter
    exact absurd shorter (Nat.lt_irrefl _)

/-- The tokens that are left and the span of the last one in front of them,
before and after tokens are passed over. -/
inductive Skipped : Span → List Token → Span → List Token → Prop where
  | refl (previous : Span) (tokens : List Token) :
      Skipped previous tokens previous tokens
  | take {previous last : Span} {token : Token} {rest left : List Token}
      (further : Skipped token.span rest last left) :
      Skipped previous (token :: rest) last left

theorem Skipped.onto {previous last : Span} {tokens left : List Token}
    (skipped : Skipped previous tokens last left) {state : State}
    (tidy : state.Tidy) (isPrevious : state.previous = previous)
    (isRest : state.rest = tokens) :
    state.Onto { state with previous := last, rest := left } := by
  induction skipped generalizing state with
  | refl =>
      subst isPrevious isRest
      exact .refl tidy
  | take further inductionHypothesis =>
      have first := tidy.onto_take isRest
      exact first.trans (inductionHypothesis first.tidy rfl rfl)

theorem skipped_statementBoundary (previous : Span) (tokens : List Token) :
    Skipped previous tokens (statementBoundary previous tokens).1
      (statementBoundary previous tokens).2 := by
  fun_induction statementBoundary previous tokens with
  | case1 => exact .refl _ _
  | case2 => exact .refl _ _
  | case3 => exact .take (.refl _ _)
  | case4 => exact .refl _ _
  | case5 => exact .take ‹_›

theorem skipped_memberBoundary (depth : Nat) (previous : Span)
    (tokens : List Token) :
    Skipped previous tokens (memberBoundary depth previous tokens).1
      (memberBoundary depth previous tokens).2 := by
  fun_induction memberBoundary depth previous tokens with
  | case1 => exact .refl _ _
  | case2 => exact .refl _ _
  | case3 => exact .take (.refl _ _)
  | case4 => exact .take ‹_›
  | case5 => exact .refl _ _
  | case6 => exact .take (.refl _ _)
  | case7 => exact .take ‹_›
  | case8 => exact .take ‹_›

theorem skipped_itemBoundary (depth : Nat) (previous : Span)
    (tokens : List Token) :
    Skipped previous tokens (itemBoundary depth previous tokens).1
      (itemBoundary depth previous tokens).2 := by
  fun_induction itemBoundary depth previous tokens with
  | case1 => exact .refl _ _
  | case2 => exact .refl _ _
  | case3 => exact .take ‹_›
  | case4 => exact .take ‹_›
  | case5 => exact .take (.refl _ _)
  | case6 => exact .take ‹_›
  | case7 => exact .take (.refl _ _)
  | case8 => exact .refl _ _
  | case9 => exact .take ‹_›

end

/-! ## The first state -/

/-- Before the tokens of a text without errors, the state is tidy. -/
theorem tidy_initialState {source : SourceText}
    (clean : source.scan.diagnostics.hasErrors = false) :
    (initialState source source.scan.tokens).Tidy := by
  obtain ⟨tokens, place, same, proper, ordered⟩ :
      ∃ tokens place,
        source.scan.tokens = tokens ++ [⟨.endOfFile, .point place⟩] ∧
        (∀ token ∈ tokens, token.IsProper) ∧
        AreOrdered (.point .first :: (tokens.map Token.span ++ [.point place])) :=
    @Scan.scanFrom_areOrdered source _ [] _ _ clean
  have isFinish : finishOf source.scan.tokens =
      ⟨.endOfFile, .point place⟩ := by
    rw [same, finishOf, List.getLast?_concat]
    rfl
  have isRest : completed source.scan.tokens = source.scan.tokens := by
    rw [same, completed, List.getLast?_concat]
    rfl
  have allProper : ∀ token ∈ tokens ++ [⟨.endOfFile, .point place⟩],
      token.IsProper :=
    List.forall_mem_append.mpr
      ⟨proper, List.forall_mem_singleton.mpr (Scan.isProper_finish place)⟩
  constructor
  case ends => exact kind_finishOf _
  case proper =>
    change ∀ token ∈ completed _ ++ [finishOf _], token.IsProper
    rw [isRest, isFinish, same]
    exact List.forall_mem_append.mpr
      ⟨allProper, List.forall_mem_singleton.mpr (Scan.isProper_finish place)⟩
  case previous => exact le_refl Position.first
  case ordered =>
    change AreOrdered (.point .first ::
      (completed _ ++ [finishOf _]).map Token.span)
    rw [isRest, isFinish, same]
    rw [← List.cons_append] at ordered
    simpa using ordered.concat_point
  case nested => exact Arena.nested_empty

end Grammar

end PluginSurface
