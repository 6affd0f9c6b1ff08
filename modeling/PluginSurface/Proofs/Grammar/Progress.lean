import PluginSurface.Proofs.Grammar.Consumption
import PluginSurface.Proofs.Grammar.Cursor

/-!
# Every round makes progress

A parser that gives a result has taken a token. One that fails need not have,
but where a loop goes on after a failure, what it skips or what was tried has: so
each round of the items, the statements of a block and the members of a class is
the last one or starts further on than the one before.
-/

namespace PluginSurface.Grammar

variable {Result Next : Type}

/-! ## Taking a token -/

/-- The end of the file stands behind the tokens that are left. -/
abbrev State.Ends (state : State) : Prop :=
  state.finish.kind = .endOfFile

theorem State.Passes.ends {state later : State} (passes : state.Passes later)
    (ends : state.Ends) : later.Ends := by
  rw [State.Ends, passes.finish]
  exact ends

theorem State.length_advance_lt {state : State} (ends : state.Ends)
    (notEnd : state.current.kind ≠ .endOfFile) :
    state.advance.rest.length < state.rest.length := by
  unfold State.advance
  cases front : state.rest with
  | nil =>
      rw [State.current, front, List.head?_nil, Option.getD_none] at notEnd
      exact absurd ends notEnd
  | cons token rest => simp

theorem isSymbol_ne_end {kind : TokenKind} {mark : Symbol}
    (found : kind.isSymbol mark = true) : kind ≠ .endOfFile := by
  rw [isSymbol_iff.mp found]
  nofun

theorem isKeyword_ne_end {kind : TokenKind} {word : Keyword}
    (found : kind.isKeyword word = true) : kind ≠ .endOfFile := by
  rw [isKeyword_iff.mp found]
  nofun

/-- A kind of token that means something is none that does not. -/
theorem kind_ne_of_some {Meaning : Type} {view : TokenKind → Option Meaning}
    {kind other : TokenKind} {meaning : Meaning}
    (found : view kind = some meaning) (missing : view other = none) :
    kind ≠ other := by
  rintro rfl
  cases missing.symm.trans found

/-- A parser that takes a token in a state if it gives a result there. -/
def TakesIn (state : State) (parser : Parse Result) : Prop :=
  state.Ends → ∀ result later, parser state = (some result, later) →
    later.rest.length < state.rest.length

/-- A parser that takes a token whenever it gives a result. -/
def Takes (parser : Parse Result) : Prop :=
  ∀ state, TakesIn state parser

/-- Both parts of a parser that gives a result do so. -/
theorem bind_eq_some {parser : Parse Result} {next : Result → Parse Next}
    {state final : State} {result : Next}
    (ran : (parser >>= next) state = (some result, final)) :
    ∃ found later, parser state = (some found, later) ∧
      next found later = (some result, final) := by
  rcases first : parser state with ⟨_ | found, later⟩
  · simp only [Bind.bind, first] at ran
    cases congrArg Prod.fst ran
  · simp only [Bind.bind, first] at ran
    exact ⟨found, later, rfl, ran⟩

namespace TakesIn

variable {state : State}

theorem failHere {fault : TokenKind → SyntaxFault} :
    TakesIn state (Grammar.failHere fault : Parse Result) :=
  fun _ _ _ ran => nomatch congrArg Prod.fst ran

theorem inspect {view : State → Result} {next : Result → Parse Next}
    (second : TakesIn state (next (view state))) :
    TakesIn state (Parse.inspect view >>= next) :=
  second

theorem andThen {parser : Parse Result} {next : Result → Parse Next}
    (first : TakesIn state parser) (second : ∀ result, Steady (next result)) :
    TakesIn state (parser >>= next) := by
  intro ends result final ran
  obtain ⟨found, later, parsed, further⟩ := bind_eq_some ran
  exact Nat.lt_of_le_of_lt (Steady.of_state further).length_le
    (first ends found later parsed)

theorem bind {parser : Parse Result} {next : Result → Parse Next}
    (first : TakesIn state parser) [second : ∀ result, Steady (next result)] :
    TakesIn state (parser >>= next) :=
  first.andThen second

theorem advance (notEnd : state.current.kind ≠ .endOfFile) :
    TakesIn state Grammar.advance := by
  rintro ends _ _ ⟨⟩
  exact State.length_advance_lt ends notEnd

theorem advanceThen {next : Unit → Parse Next}
    (notEnd : state.current.kind ≠ .endOfFile)
    [∀ result, Steady (next result)] :
    TakesIn state (Grammar.advance >>= next) :=
  (advance notEnd).bind

end TakesIn

namespace Takes

theorem failHere {fault : TokenKind → SyntaxFault} :
    Takes (Grammar.failHere fault : Parse Result) :=
  fun _ => .failHere

theorem bind {parser : Parse Result} {next : Result → Parse Next}
    (first : Takes parser) [∀ result, Steady (next result)] :
    Takes (parser >>= next) :=
  fun state => (first state).bind

/-- It is enough if the second part takes a token. -/
theorem after {parser : Parse Result} {next : Result → Parse Next}
    [Steady parser] (second : ∀ result, Takes (next result)) :
    Takes (parser >>= next) := by
  intro state ends result final ran
  obtain ⟨found, later, parsed, further⟩ := bind_eq_some ran
  have passes := Steady.of_state parsed
  exact Nat.lt_of_lt_of_le
    (second found later (passes.ends ends) result final further)
    passes.length_le

theorem ite {condition : Prop} [Decidable condition]
    {whenTrue whenFalse : Parse Result} (left : Takes whenTrue)
    (right : Takes whenFalse) :
    Takes (if condition then whenTrue else whenFalse) := by
  split
  · exact left
  · exact right

/-- What comes after a look at the state may depend on what was seen. -/
theorem inspect {view : State → Result} {next : Result → Parse Next}
    (second : ∀ state, TakesIn state (next (view state))) :
    Takes (Parse.inspect view >>= next) :=
  second

theorem expectSymbol {mark : Symbol} : Takes (Grammar.expectSymbol mark) := by
  refine .inspect fun state => ?_
  split
  · next found => exact .advance (isSymbol_ne_end found)
  · exact .failHere

theorem expectKeyword {word : Keyword} :
    Takes (Grammar.expectKeyword word) := by
  refine .inspect fun state => ?_
  split
  · next found => exact .advance (isKeyword_ne_end found)
  · exact .failHere

end Takes

theorem takesIn_takeName {state : State} {text : String}
    (notEnd : state.current.kind ≠ .endOfFile) :
    TakesIn state (takeName text) :=
  (TakesIn.advanceThen notEnd :
    TakesIn state (advance >>= fun _ => pure _))

theorem takes_expectIdentifier : Takes expectIdentifier := by
  refine .inspect fun state => ?_
  split
  · next found => exact takesIn_takeName (by simp [found])
  · next found =>
      split
      · exact takesIn_takeName (by simp [found])
      · exact .failHere
  · exact .failHere

theorem takes_expectPropertyName : Takes expectPropertyName := by
  refine .inspect fun state => ?_
  split
  · next found => exact takesIn_takeName (by simp [found])
  · next found => exact takesIn_takeName (by simp [found])
  · exact .failHere

/-- What comes after a symbol that is taken if it stands in front. -/
theorem eatSymbol_bind (mark : Symbol) (next : Bool → Parse Next)
    (state : State) :
    (eatSymbol mark >>= next) state =
      if state.current.kind.isSymbol mark then next true state.advance
      else next false state := by
  simp only [Bind.bind, eatSymbol_eq]
  by_cases found : state.current.kind.isSymbol mark = true <;> simp [found]

theorem eatKeyword_eq (word : Keyword) (state : State) :
    eatKeyword word state =
      if state.current.kind.isKeyword word then (some true, state.advance)
      else (some false, state) := by
  change (if state.current.kind.isKeyword word then _ else _ : Parse Bool)
    state = _
  split <;> rfl

/-! ### Expressions -/

theorem takes_nested {parser : Parse Result} (inner : Takes parser) :
    Takes (nested parser) := by
  intro state ends result final ran
  unfold nested at ran
  split at ran
  · cases congrArg Prod.fst ran
  · let deeper : State := { state with depth := state.depth + 1 }
    rcases parsed : parser deeper with ⟨found, after⟩
    rw [parsed] at ran
    cases ran
    exact inner deeper ends _ after parsed

section

variable {sub : ExprGoal → Parse ExprId} [∀ goal, Steady (sub goal)]

theorem takes_primaryNode : Takes (primaryNode sub) := by
  refine .inspect fun state => ?_
  split
  case h_10 found =>
    split
    · exact .advanceThen (by simp [found])
    · exact .failHere
  case h_14 => exact .failHere
  all_goals
    rename_i found
    exact .advanceThen (by simp [found])

theorem takes_primary : Takes (primary sub) :=
  .inspect fun state => (takes_primaryNode state).bind

theorem takes_unary : Takes (unary sub) := by
  refine .inspect fun state => ?_
  split
  · next operator found =>
      exact .inspect (.advanceThen (kind_ne_of_some found rfl))
  · exact (takes_primary state).bind

theorem takes_assignment : Takes (assignment sub) := by
  refine fun state => TakesIn.andThen ((takes_unary state).bind.bind) fun target =>
    .bind fun kind => ?_
  split <;> infer_instance

theorem takes_goalStep (goal : ExprGoal) : Takes (goalStep sub goal) := by
  cases goal with
  | expression =>
      exact takes_nested takes_assignment
  | assignment => exact takes_assignment
  | binary least => exact takes_unary.bind
  | unary => exact takes_unary

end

theorem takes_goalAt (bound : Nat) (goal : ExprGoal) :
    Takes (goalAt bound goal) := by
  cases bound with
  | zero => exact .failHere
  | succ => exact takes_goalStep goal

theorem takes_expression : Takes expression :=
  .inspect fun state => takes_goalAt _ _ state

/-! ### Statements -/

section

variable {statement : Parse StmtId} [Steady statement]

theorem takes_blockOf : Takes (blockOf statement) := by
  unfold blockOf
  exact .after fun start => .bind .expectSymbol

theorem takes_statementNode : Takes (statementNode statement) := by
  refine .inspect fun state => ?_
  split
  case h_1 => exact (takes_blockOf state).bind
  case h_10 => exact (takes_expression state).bind
  all_goals
    rename_i found
    exact .advanceThen (by simp [found])

theorem takes_statementStep : Takes (statementStep statement) := by
  unfold statementStep
  exact .after fun start => takes_statementNode.bind

end

theorem takes_statementAt (bound : Nat) : Takes (statementAt bound) := by
  cases bound with
  | zero => exact .failHere
  | succ => exact takes_statementStep

/-! ### Declarations -/

-- A parser with many steps takes large instances.
set_option synthInstance.maxSize 4096

theorem takes_classMember : Takes classMember := by
  unfold classMember
  exact .after fun start => .after fun decorators => .after fun bound =>
    .after fun isStatic => takes_expectPropertyName.bind

theorem takes_functionDecl {decorators : List Decorator}
    {isExported isDeclared : Bool} {start : Span} :
    Takes (functionDecl decorators isExported isDeclared start) := by
  unfold functionDecl
  exact .bind .expectKeyword

theorem takes_classDecl {decorators : List Decorator} {isExported : Bool}
    {start : Span} : Takes (classDecl decorators isExported start) := by
  unfold classDecl
  dsimp only
  exact .bind .expectKeyword

theorem takes_importDecl {start : Span} : Takes (importDecl start) := by
  unfold importDecl
  exact .bind .expectKeyword

theorem takes_exportDecl {start : Span} : Takes (exportDecl start) := by
  unfold exportDecl
  dsimp only
  exact .bind .expectSymbol

theorem takes_variableDecl {kind : BindingKind} {decorators : List Decorator}
    {isExported : Bool} {start : Span} :
    Takes (variableDecl kind decorators isExported start) := by
  unfold variableDecl
  exact .after fun _ => takes_expectIdentifier.bind

theorem takes_declarationItem {decorators : List Decorator}
    {isExported isDeclared : Bool} {start : Span} :
    Takes (declarationItem decorators isExported isDeclared start) := by
  refine .inspect fun state => ?_
  split
  · exact (takes_functionDecl state).bind
  · exact (takes_classDecl state).bind
  · exact (takes_variableDecl state).bind
  · exact (takes_variableDecl state).bind
  · exact (takes_variableDecl state).bind
  · split
    · exact .failHere
    · exact (takes_importDecl state).bind
  · split <;> exact .failHere
  · split <;> exact .failHere
  · exact .failHere

theorem takes_item : Takes item := by
  unfold item
  exact .after fun start => .after fun decorators => .after fun isExported =>
    .after fun isOpen => .ite takes_exportDecl.bind
      (.after fun isDeclared => takes_declarationItem)

/-! ## Items that fail -/

/-- A parser that takes a token in a state, whether it fails or not. -/
def ShrinksIn (state : State) (parser : Parse Result) : Prop :=
  (parser state).2.rest.length < state.rest.length

namespace ShrinksIn

variable {state : State} {parser : Parse Result} {next : Result → Parse Next}

theorem bind (first : ShrinksIn state parser)
    [second : ∀ result, Steady (next result)] :
    ShrinksIn state (parser >>= next) := by
  unfold ShrinksIn at first ⊢
  rcases ran : parser state with ⟨_ | result, middle⟩
  · rw [ran] at first
    simpa only [Bind.bind, ran] using first
  · rw [ran] at first
    simp only [Bind.bind, ran]
    have passes := (second result).passes middle
    exact Nat.lt_of_le_of_lt passes.length_le first

/-- The first part leaves the state as it is. -/
theorem still {result : Result} (ran : parser state = (some result, state))
    (second : ShrinksIn state (next result)) :
    ShrinksIn state (parser >>= next) := by
  unfold ShrinksIn at second ⊢
  simpa only [Bind.bind, ran] using second

theorem inspect {view : State → Result}
    (second : ShrinksIn state (next (view state))) :
    ShrinksIn state (Parse.inspect view >>= next) :=
  second

theorem eatSymbol (ends : state.Ends) {mark : Symbol}
    (found : state.current.kind = .symbol mark) :
    ShrinksIn state (Grammar.eatSymbol mark) := by
  unfold ShrinksIn
  rw [eatSymbol_eq, if_pos (isSymbol_iff.mpr found)]
  exact State.length_advance_lt ends (by simp [found])

theorem eatKeyword (ends : state.Ends) {word : Keyword}
    (found : state.current.kind = .keyword word) :
    ShrinksIn state (Grammar.eatKeyword word) := by
  unfold ShrinksIn
  rw [eatKeyword_eq, if_pos (isKeyword_iff.mpr found)]
  exact State.length_advance_lt ends (by simp [found])

end ShrinksIn

section

variable {state : State}

theorem decorators_eq (other : state.current.kind ≠ .symbol .atSign) :
    decorators state = (some [], state) := by
  have missing : state.current.kind.isSymbol .atSign = false :=
    Bool.eq_false_iff.mpr (mt isSymbol_iff.mp other)
  simp [decorators, decoratorsAt, stepBound, currentSpan, Parse.inspect,
    Bind.bind, eatSymbol_eq, missing, pure]

theorem shrinks_decorators (ends : state.Ends)
    (found : state.current.kind = .symbol .atSign) :
    ShrinksIn state decorators := by
  unfold decorators
  refine .inspect ?_
  unfold decoratorsAt
  exact .inspect (ShrinksIn.eatSymbol ends found).bind

theorem shrinks_declarationItem (ends : state.Ends) {word : Keyword}
    (found : state.current.kind = .keyword word)
    (starts : word = .functionWord ∨ word = .classWord ∨ word = .importWord)
    (decorators : List Decorator) (start : Span) :
    ShrinksIn state (declarationItem decorators false false start) := by
  have expect : ShrinksIn state (expectKeyword word) := by
    refine .inspect ?_
    rw [if_pos (isKeyword_iff.mpr found)]
    exact State.length_advance_lt ends (by simp [found])
  unfold declarationItem
  refine .inspect ?_
  rw [found]
  rcases starts with rfl | rfl | rfl
  · refine ShrinksIn.bind ?_
    unfold functionDecl
    exact expect.bind
  · refine ShrinksIn.bind ?_
    unfold classDecl
    dsimp only
    exact expect.bind
  · rw [Bool.false_or, if_neg Bool.false_ne_true]
    refine ShrinksIn.bind ?_
    unfold importDecl
    exact expect.bind

/-- What starts an item is taken, even if the item fails. -/
theorem shrinks_item (ends : state.Ends)
    (starts : startsItem state.current.kind = true) :
    ShrinksIn state item := by
  unfold item
  refine .inspect ?_
  by_cases atSign : state.current.kind = .symbol .atSign
  · exact (shrinks_decorators ends atSign).bind
  refine .still (decorators_eq atSign) ?_
  by_cases isExport : state.current.kind = .keyword .exportWord
  · exact (ShrinksIn.eatKeyword ends isExport).bind
  have notExport : eatKeyword .exportWord state = (some false, state) := by
    rw [eatKeyword_eq, if_neg (mt isKeyword_iff.mp isExport)]
  refine .still notExport (.inspect ?_)
  rw [Bool.false_and, if_neg Bool.false_ne_true]
  by_cases isDeclare : state.current.kind = .keyword .declareWord
  · exact (ShrinksIn.eatKeyword ends isDeclare).bind
  have notDeclare : eatKeyword .declareWord state = (some false, state) := by
    rw [eatKeyword_eq, if_neg (mt isKeyword_iff.mp isDeclare)]
  refine .still notDeclare ?_
  unfold startsItem at starts
  split at starts <;> simp_all only [not_true_eq_false]
  case h_2 found => exact shrinks_declarationItem ends found (by simp) _ _
  case h_3 found => exact shrinks_declarationItem ends found (by simp) _ _
  case h_4 found => exact shrinks_declarationItem ends found (by simp) _ _
  all_goals cases starts

end

/-! ## Rounds -/

/-- Rounds one after another. A round is the last one or it says what it has
read, if anything, and where the next one starts. -/
def rounds (round : State → Option (Option Result × State)) :
    Nat → Parse (List Result)
  | 0 => pure []
  | bound + 1 => fun state =>
      match round state with
      | none => (some [], state)
      | some went =>
          (rounds round bound >>= fun others => pure (went.1.toList ++ others))
            went.2

theorem rounds_succ (round : State → Option (Option Result × State))
    (bound : Nat) (state : State) :
    rounds round (bound + 1) state =
      match round state with
      | none => (some [], state)
      | some went =>
          (rounds round bound >>= fun others => pure (went.1.toList ++ others))
            went.2 :=
  rfl

/-- What an attempt leads to, where a failure is recovered from. -/
def attempted (parser : Parse Result) (recover : Parse Unit) (state : State) :
    Option Result × State :=
  match parser state with
  | (some result, next) => (some result, next)
  | (none, next) => (none, (recover next).2)

def itemRound (state : State) : Option (Option Item × State) :=
  if state.current.kind.isEndOfFile || state.diagnostics.isFull then none
  else if state.current.kind.isSymbol .semicolon then
    some (none, state.advance)
  else some (attempted item skipItem state)

def statementRound (statement : Parse StmtId) (state : State) :
    Option (Option StmtId × State) :=
  if state.current.kind.isSymbol .closeBrace ||
      state.current.kind.isEndOfFile || state.diagnostics.isFull then none
  else some (attempted statement (recoverStatement state.current.span) state)

def memberRound (state : State) : Option (Option Member × State) :=
  if state.current.kind.isSymbol .closeBrace ||
      state.current.kind.isEndOfFile then none
  else if state.current.kind.isSymbol .semicolon then
    some (none, state.advance)
  else if state.diagnostics.isFull then none
  else some (attempted classMember skipMember state)

theorem bind_nothing (parser : Parse (List Result)) :
    (parser >>= fun others => pure ((none : Option Result).toList ++ others)) =
      parser := by
  funext state
  simp only [Bind.bind, Option.toList_none, List.nil_append]
  rcases parser state with ⟨_ | results, later⟩ <;> rfl

section

variable {parser : Parse Result} {recover : Parse Unit} {state next : State}

theorem attempted_none (failed : parser state = (none, next)) :
    attempted parser recover state = (none, (recover next).2) := by
  rw [attempted, failed]

theorem attempted_some {result : Result}
    (parsed : parser state = (some result, next)) :
    attempted parser recover state = (some result, next) := by
  rw [attempted, parsed]

end

theorem itemsToEnd_eq_rounds (bound : Nat) :
    itemsToEnd bound = rounds itemRound bound := by
  induction bound with
  | zero => rfl
  | succ bound inductionHypothesis =>
      funext state
      rw [itemsToEnd_succ, rounds_succ, itemRound, inductionHypothesis]
      split
      · rfl
      · split
        · exact (congrFun (bind_nothing _) _).symm
        · rcases parsed : item state with ⟨_ | first, next⟩
          · rw [attempted_none parsed]
            exact (congrFun (bind_nothing _) _).symm
          · rw [attempted_some parsed]
            rfl

theorem statementsUntilBrace_succ (statement : Parse StmtId) (bound : Nat)
    (state : State) :
    statementsUntilBrace statement (bound + 1) state =
      if state.current.kind.isSymbol .closeBrace ||
          state.current.kind.isEndOfFile || state.diagnostics.isFull then
        (some [], state)
      else
        match statement state with
        | (some first, next) =>
            (statementsUntilBrace statement bound >>= fun rest =>
              pure (first :: rest)) next
        | (none, next) =>
            statementsUntilBrace statement bound
              (recoverStatement state.current.span next).2 := by
  change (if state.current.kind.isSymbol .closeBrace ||
      state.current.kind.isEndOfFile || state.diagnostics.isFull then
    _ else _ : Parse (List StmtId)) state = _
  split
  · rfl
  · rcases ran : statement state with ⟨_ | first, next⟩
    · obtain ⟨moved, recovers, _⟩ :=
        recoverStatement_errors state.current.span next
      simp only [Bind.bind, currentSpan, Parse.inspect, Parse.attempt, ran,
        recovers]
    · simp only [Bind.bind, currentSpan, Parse.inspect, Parse.attempt, ran]

theorem membersUntilBrace_succ (bound : Nat) (state : State) :
    membersUntilBrace (bound + 1) state =
      if state.current.kind.isSymbol .closeBrace ||
          state.current.kind.isEndOfFile then (some [], state)
      else if state.current.kind.isSymbol .semicolon then
        membersUntilBrace bound state.advance
      else if state.diagnostics.isFull then (some [], state)
      else
        match classMember state with
        | (some first, next) =>
            (membersUntilBrace bound >>= fun rest => pure (first :: rest)) next
        | (none, next) => membersUntilBrace bound (skipMember next).2 := by
  change (if state.current.kind.isSymbol .closeBrace ||
      state.current.kind.isEndOfFile then _ else _ : Parse (List Member))
    state = _
  split
  · rfl
  · by_cases isSemicolon : state.current.kind.isSymbol .semicolon
    · simp [Bind.bind, eatSymbol_eq, isSemicolon]
    · rw [if_neg isSemicolon]
      by_cases isFull : state.diagnostics.isFull
      · simp [Bind.bind, eatSymbol_eq, isSemicolon, Grammar.isFull,
          Parse.inspect, isFull, pure]
      · rw [if_neg isFull]
        rcases parsed : classMember state with ⟨_ | first, next⟩ <;>
          simp [Bind.bind, eatSymbol_eq, isSemicolon, Grammar.isFull,
            Parse.inspect, isFull, Parse.attempt, parsed, skipMember, skipBy]

theorem statementsUntilBrace_eq_rounds (statement : Parse StmtId)
    (bound : Nat) :
    statementsUntilBrace statement bound =
      rounds (statementRound statement) bound := by
  induction bound with
  | zero => rfl
  | succ bound inductionHypothesis =>
      funext state
      rw [statementsUntilBrace_succ, rounds_succ, statementRound,
        inductionHypothesis]
      split
      · rfl
      · rcases parsed : statement state with ⟨_ | first, next⟩
        · rw [attempted_none parsed]
          exact (congrFun (bind_nothing _) _).symm
        · rw [attempted_some parsed]
          rfl

theorem membersUntilBrace_eq_rounds (bound : Nat) :
    membersUntilBrace bound = rounds memberRound bound := by
  induction bound with
  | zero => rfl
  | succ bound inductionHypothesis =>
      funext state
      rw [membersUntilBrace_succ, rounds_succ, memberRound,
        inductionHypothesis]
      split
      · rfl
      · split
        · exact (congrFun (bind_nothing _) _).symm
        · split
          · rfl
          · rcases parsed : classMember state with ⟨_ | first, next⟩
            · rw [attempted_none parsed]
              exact (congrFun (bind_nothing _) _).symm
            · rw [attempted_some parsed]
              rfl

/-! ## Progress -/

theorem Onward.eq_of_length_eq {previous last : Span} {tokens left : List Token}
    (onward : Onward previous tokens last left)
    (same : tokens.length ≤ left.length) :
    left = tokens ∨ StartsSplit left := by
  induction onward with
  | refl => exact .inl rfl
  | take further _ =>
      have shorter := further.length_le
      rw [List.length_cons] at same
      omega
  | split found splits _ inductionHypothesis =>
      rcases inductionHypothesis same with rfl | starts
      · exact .inr ⟨_, _, _, _, splits, rfl⟩
      · exact .inr starts

/-- A rule for skipping goes past every token but those at which it stops, none
of which is what is left of a symbol. -/
structure SkipsTo (stops : TokenKind → Bool)
    (rule : Span → List Token → Span × List Token) : Prop where
  onward : ∀ previous tokens,
    Onward previous tokens (rule previous tokens).1 (rule previous tokens).2
  past : ∀ previous token rest, stops token.kind = false →
    (rule previous (token :: rest)).2.length ≤ rest.length
  split : ∀ mark half, afterAngle? mark = some half →
    stops (.symbol half) = false

theorem skipsTo_itemBoundary :
    SkipsTo (fun kind => kind.isEndOfFile || startsItem kind)
      (itemBoundary 0) where
  onward := onward_itemBoundary 0
  past previous token rest free := by
    obtain ⟨notEnd, other⟩ := Bool.or_eq_false_iff.mp free
    have further (depth : Nat) :=
      (onward_itemBoundary depth token.span rest).length_le
    simp only [itemBoundary, notEnd, other]
    split
    · contradiction
    · split
      · exact further _
      · split
        · exact further _
        · split
          · exact Nat.le_refl _
          · simpa using further 0
  split mark half splits := by
    cases mark <;> cases splits <;> rfl

theorem skipsTo_memberBoundary :
    SkipsTo (fun kind => kind.isEndOfFile || kind.isSymbol .closeBrace)
      (memberBoundary 0) where
  onward := onward_memberBoundary 0
  past previous token rest free := by
    obtain ⟨notEnd, other⟩ := Bool.or_eq_false_iff.mp free
    have further (depth : Nat) :=
      (onward_memberBoundary depth token.span rest).length_le
    simp only [memberBoundary, notEnd, other]
    split
    · contradiction
    · split
      · exact Nat.le_refl _
      · split
        · exact further _
        · simpa using further 0
  split mark half splits := by
    cases mark <;> cases splits <;> rfl

theorem skipsTo_statementBoundary :
    SkipsTo (fun kind => kind.isEndOfFile || kind.isSymbol .closeBrace ||
      startsStatement kind) statementBoundary where
  onward := onward_statementBoundary
  past previous token rest free := by
    simp only [Bool.or_eq_false_iff] at free
    have further := (onward_statementBoundary token.span rest).length_le
    simp only [statementBoundary, free]
    split
    · contradiction
    · split
      · exact Nat.le_refl _
      · simpa using further
  split mark half splits := by
    cases mark <;> cases splits <;> rfl

theorem statementBoundary_stays {previous : Span} {token : Token}
    {rest : List Token}
    (stops : (token.kind.isEndOfFile || token.kind.isSymbol .closeBrace ||
      startsStatement token.kind) = true) :
    statementBoundary previous (token :: rest) = (previous, token :: rest) := by
  unfold statementBoundary
  split
  · rfl
  · next notEnd =>
      rw [if_neg fun isSemicolon => ?_, if_pos (by simpa [notEnd] using stops)]
      rw [isSymbol_iff.mp isSemicolon] at stops
      cases stops

theorem State.front_of_ne_end {state : State} (ends : state.Ends)
    (notEnd : state.current.kind ≠ .endOfFile) :
    ∃ rest, state.rest = state.current :: rest := by
  cases front : state.rest with
  | nil =>
      rw [State.current, front, List.head?_nil, Option.getD_none] at notEnd
      exact absurd ends notEnd
  | cons token rest => exact ⟨rest, by simp [State.current, front]⟩

section

variable {state later : State} {stops : TokenKind → Bool}
  {rule : Span → List Token → Span × List Token}

/-- Skipping goes past what is left of a symbol. -/
theorem SkipsTo.past_split (skips : SkipsTo stops rule)
    (starts : StartsSplit later.rest) :
    (skipBy rule later).2.rest.length < later.rest.length := by
  obtain ⟨mark, half, span, rest, splits, front⟩ := starts
  have past := skips.past later.previous ⟨.symbol half, span⟩ rest
    (skips.split mark half splits)
  change (rule later.previous later.rest).2.length < _
  rw [front, List.length_cons]
  exact Nat.lt_succ_of_le past

/-- Skipping from where a parser failed goes further than the state that it
started in, unless it failed right at a token at which the rule stops. -/
theorem SkipsTo.forward (skips : SkipsTo stops rule) (ends : state.Ends)
    (notEnd : state.current.kind ≠ .endOfFile) (passes : state.Passes later)
    (free : stops state.current.kind = false ∨
      later.rest.length < state.rest.length) :
    (skipBy rule later).2.rest.length < state.rest.length := by
  have further : (skipBy rule later).2.rest.length ≤ later.rest.length :=
    (skips.onward later.previous later.rest).length_le
  rcases Nat.lt_or_ge later.rest.length state.rest.length with shorter | same
  · exact Nat.lt_of_le_of_lt further shorter
  rcases passes.onward.eq_of_length_eq same with unmoved | starts
  · obtain ⟨rest, front⟩ := State.front_of_ne_end ends notEnd
    have stays : stops state.current.kind = false :=
      free.resolve_right (Nat.not_lt.mpr same)
    have past := skips.past later.previous state.current rest stays
    change (rule later.previous later.rest).2.length < _
    rw [unmoved, front, List.length_cons]
    exact Nat.lt_succ_of_le past
  · exact Nat.lt_of_lt_of_le (skips.past_split starts) passes.length_le

/-- After a statement that failed, a place is further on even if the statement
took nothing and skipping stops at once: then the span in front is that of the
start, and the token there is passed. -/
theorem recoverStatement_forward (ends : state.Ends)
    (notEnd : state.current.kind ≠ .endOfFile)
    (notClosed : state.current.kind.isSymbol .closeBrace = false)
    (passes : state.Passes later) :
    (recoverStatement state.current.span later).2.rest.length <
      state.rest.length := by
  let skipped := (skipStatement later).2
  have skips : later.Passes skipped := Steady.passes later
  have onward := passes.trans skips
  have unfolded : recoverStatement state.current.span later =
      (if (skipped.current.span = state.current.span &&
          !skipped.current.kind.isSymbol .closeBrace) = true then advance
        else pure () : Parse Unit) skipped := rfl
  have steady : Steady (if (skipped.current.span = state.current.span &&
      !skipped.current.kind.isSymbol .closeBrace) = true then advance
    else pure () : Parse Unit) := inferInstance
  rw [unfolded]
  rcases Nat.lt_or_ge skipped.rest.length state.rest.length with shorter | same
  · exact Nat.lt_of_le_of_lt (steady.passes skipped).length_le shorter
  have unsplit : later.rest = state.rest := by
    refine (passes.onward.eq_of_length_eq
      (Nat.le_trans same skips.length_le)).resolve_right fun starts => ?_
    have past := skipsTo_statementBoundary.past_split starts
    exact Nat.not_lt.mpr same (Nat.lt_of_lt_of_le past passes.length_le)
  obtain ⟨rest, front⟩ := State.front_of_ne_end ends notEnd
  have unmoved : skipped.rest = state.rest := by
    change (statementBoundary later.previous later.rest).2 = _
    rw [unsplit, front]
    refine congrArg Prod.snd (statementBoundary_stays ?_)
    refine Bool.not_eq_false _ |>.mp fun free => ?_
    have past := skipsTo_statementBoundary.past later.previous state.current
      rest free
    change state.rest.length ≤ (statementBoundary later.previous later.rest).2.length
      at same
    rw [unsplit, front, List.length_cons] at same
    omega
  have current : skipped.current = state.current := by
    rw [State.current, State.current, unmoved, onward.finish]
  rw [if_pos (by simp [current, notClosed])]
  have further := State.length_advance_lt (onward.ends ends) (current ▸ notEnd)
  rwa [unmoved] at further

end

/-- A round that is not the last one passes to a state further on. -/
def Forward (round : State → Option (Option Result × State)) : Prop :=
  ∀ state went, state.Ends → round state = some went →
    state.Passes went.2 ∧ went.2.rest.length < state.rest.length

theorem passes_attempted {parser : Parse Result} {recover : Parse Unit}
    [Steady parser] [steady : Steady recover] (state : State) :
    state.Passes (attempted parser recover state).2 := by
  rcases ran : parser state with ⟨_ | result, next⟩
  · rw [attempted_none ran]
    exact (Steady.of_state ran).trans (steady.passes next)
  · rw [attempted_some ran]
    exact Steady.of_state ran

/-- An attempt goes forward if what recovers from a failure does. -/
theorem attempted_forward {parser : Parse Result} {recover : Parse Unit}
    {state : State} (takes : Takes parser) (ends : state.Ends)
    (forward : ∀ later, parser state = (none, later) →
      (recover later).2.rest.length < state.rest.length) :
    (attempted parser recover state).2.rest.length < state.rest.length := by
  rcases ran : parser state with ⟨_ | result, next⟩
  · rw [attempted_none ran]
    exact forward next ran
  · rw [attempted_some ran]
    exact takes state ends result next ran

theorem forward_semicolon {state : State} (ends : state.Ends)
    (isSemicolon : state.current.kind.isSymbol .semicolon = true) :
    state.Passes state.advance ∧
      state.advance.rest.length < state.rest.length :=
  ⟨state.passes_advance,
    State.length_advance_lt ends (isSymbol_ne_end isSemicolon)⟩

theorem forward_itemRound : Forward itemRound := by
  intro state went ends ran
  unfold itemRound at ran
  split at ran
  · cases ran
  · next goesOn =>
      simp only [Bool.or_eq_true, not_or] at goesOn
      split at ran
      · next isSemicolon =>
          cases ran
          exact forward_semicolon ends isSemicolon
      · cases ran
        refine ⟨passes_attempted state,
          attempted_forward takes_item ends fun later failed => ?_⟩
        have notEnd := mt isEndOfFile_iff.mpr goesOn.1
        refine skipsTo_itemBoundary.forward ends notEnd
          (Steady.of_state failed) ?_
        by_cases starts : startsItem state.current.kind = true
        · have shrinks := shrinks_item ends starts
          rw [ShrinksIn, failed] at shrinks
          exact .inr shrinks
        · exact .inl (by simp [goesOn.1, starts])

theorem forward_statementRound {statement : Parse StmtId} [Steady statement]
    (takes : Takes statement) : Forward (statementRound statement) := by
  intro state went ends ran
  unfold statementRound at ran
  split at ran
  · cases ran
  · next goesOn =>
      simp only [Bool.or_eq_true, not_or] at goesOn
      cases ran
      exact ⟨passes_attempted state,
        attempted_forward takes ends fun later failed =>
          recoverStatement_forward ends
            (mt isEndOfFile_iff.mpr goesOn.1.2) (by simp [goesOn.1.1])
            (Steady.of_state failed)⟩

theorem forward_memberRound : Forward memberRound := by
  intro state went ends ran
  unfold memberRound at ran
  split at ran
  · cases ran
  · next goesOn =>
      simp only [Bool.or_eq_true, not_or] at goesOn
      split at ran
      · next isSemicolon =>
          cases ran
          exact forward_semicolon ends isSemicolon
      · split at ran
        · cases ran
        · cases ran
          refine ⟨passes_attempted state,
            attempted_forward takes_classMember ends fun later failed => ?_⟩
          exact skipsTo_memberBoundary.forward ends
            (mt isEndOfFile_iff.mpr goesOn.2) (Steady.of_state failed)
            (.inl (by simp [goesOn.1, goesOn.2]))

end PluginSurface.Grammar
