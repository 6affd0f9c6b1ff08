import PluginSurface.Grammar.Program
import PluginSurface.Proofs.Syntax.Kinds

/-!
# Parsers account for what they do

A parser never takes back an error, and one that fails records an error. As long
as it records none, it consumes tokens one by one from the front, never the end
of the file, and may leave a part of the last one where type arguments close. All
this holds of a parser if it holds of its steps.
-/

namespace PluginSurface.Grammar

variable {Result Next : Type}

/-- How many errors have been recorded. -/
abbrev State.errors (state : State) : Nat :=
  state.diagnostics.errorCount

/-- Tokens that are left when others, none of them the end of the file, are
taken from their front. A symbol at the front may lose its first `>`. -/
inductive Consumes : List Token → List Token → Prop where
  | refl (tokens : List Token) : Consumes tokens tokens
  | take {token : Token} {rest left : List Token}
      (notEnd : token.kind ≠ .endOfFile) (further : Consumes rest left) :
      Consumes (token :: rest) left
  | split {token : Token} {mark half : Symbol} {span : Span}
      {rest left : List Token} (found : token.kind = .symbol mark)
      (splits : afterAngle? mark = some half)
      (further : Consumes (⟨.symbol half, span⟩ :: rest) left) :
      Consumes (token :: rest) left

theorem Consumes.trans {tokens middle left : List Token}
    (first : Consumes tokens middle) (second : Consumes middle left) :
    Consumes tokens left := by
  induction first with
  | refl => exact second
  | take notEnd _ inductionHypothesis =>
      exact .take notEnd (inductionHypothesis second)
  | split found splits _ inductionHypothesis =>
      exact .split found splits (inductionHypothesis second)

/-- What is known of the outcome of a parser that ran in a state. -/
structure Accounted (state : State) (outcome : Option Result × State) :
    Prop where
  grows : state.errors ≤ outcome.2.errors
  signals : outcome.1 = none → state.errors < outcome.2.errors
  consumes : outcome.2.errors = state.errors →
    Consumes state.rest outcome.2.rest

/-- A parser that accounts for what it does in a state. -/
def AccountsIn (state : State) (parser : Parse Result) : Prop :=
  Accounted state (parser state)

/-- A parser that accounts for what it does in every state. -/
class Accounts (parser : Parse Result) : Prop where
  accounted : ∀ state, AccountsIn state parser

theorem Accounted.of_faulty {state : State} {outcome : Option Result × State}
    (faulty : state.errors < outcome.2.errors) : Accounted state outcome where
  grows := Nat.le_of_lt faulty
  signals _ := faulty
  consumes same := absurd same (Nat.ne_of_gt faulty)

theorem Accounted.unchanged {state : State} {result : Result} :
    Accounted state (some result, state) :=
  ⟨Nat.le_refl _, nofun, fun _ => .refl _⟩

theorem State.errors_report (state : State) (fault : SyntaxFault)
    (span : Span) : state.errors < (state.report fault span).errors := by
  simp [State.errors, State.report, Diagnostics.push]

/-! ## Composition -/

namespace AccountsIn

variable {state : State}

theorem pure {result : Result} :
    AccountsIn state (Pure.pure result : Parse Result) :=
  .unchanged

theorem failHere {fault : TokenKind → SyntaxFault} :
    AccountsIn state (Grammar.failHere fault : Parse Result) :=
  .of_faulty (state.errors_report _ _)

theorem bind {parser : Parse Result} {next : Result → Parse Next}
    (first : AccountsIn state parser)
    (second : ∀ result later, parser state = (some result, later) →
      AccountsIn later (next result)) :
    AccountsIn state (parser >>= next) := by
  unfold AccountsIn at first ⊢
  rcases parsed : parser state with ⟨_ | result, middle⟩
  · have unfolded : (parser >>= next) state = (none, middle) := by
      simp only [Bind.bind, parsed]
    rw [unfolded]
    rw [parsed] at first
    exact .of_faulty (first.signals rfl)
  · have unfolded : (parser >>= next) state = next result middle := by
      simp only [Bind.bind, parsed]
    have further : Accounted middle (next result middle) :=
      second result middle parsed
    rw [unfolded]
    rw [parsed] at first
    refine ⟨Nat.le_trans first.grows further.grows,
      fun failed => Nat.lt_of_le_of_lt first.grows (further.signals failed),
      fun same => ?_⟩
    have middleSame : middle.errors = state.errors :=
      Nat.le_antisymm (same ▸ further.grows) first.grows
    exact (first.consumes middleSame).trans
      (further.consumes (same.trans middleSame.symm))

/-- The first step may depend on the state that it is taken in. -/
theorem andThen {parser : Parse Result} {next : Result → Parse Next}
    (first : AccountsIn state parser)
    [second : ∀ result, Accounts (next result)] :
    AccountsIn state (parser >>= next) :=
  first.bind fun result later _ => (second result).accounted later

/-- A further look at the state. -/
theorem inspect {view : State → Result} {next : Result → Parse Next}
    (second : AccountsIn state (next (view state))) :
    AccountsIn state (Parse.inspect view >>= next) :=
  second

end AccountsIn

namespace Accounts

theorem bind {parser : Parse Result} {next : Result → Parse Next}
    [first : Accounts parser] (second : ∀ result, Accounts (next result)) :
    Accounts (parser >>= next) where
  accounted state := (first.accounted state).andThen

theorem ite {condition : Prop} [Decidable condition]
    {whenTrue whenFalse : Parse Result} [left : Accounts whenTrue]
    (right : Accounts whenFalse) :
    Accounts (if condition then whenTrue else whenFalse) := by
  split
  · exact left
  · exact right

/-- What comes after a look at the state may depend on what was seen. -/
theorem inspect {view : State → Result} {next : Result → Parse Next}
    (second : ∀ state, AccountsIn state (next (view state))) :
    Accounts (Parse.inspect view >>= next) :=
  ⟨second⟩

end Accounts

instance accounts_pure {result : Result} :
    Accounts (pure result : Parse Result) :=
  ⟨fun _ => .unchanged⟩

instance accounts_bind {parser : Parse Result} {next : Result → Parse Next}
    [Accounts parser] [∀ result, Accounts (next result)] :
    Accounts (parser >>= next) :=
  .bind fun _ => inferInstance

instance accounts_ite {condition : Prop} [Decidable condition]
    {whenTrue whenFalse : Parse Result} [Accounts whenTrue]
    [Accounts whenFalse] :
    Accounts (if condition then whenTrue else whenFalse) :=
  .ite inferInstance

instance accounts_inspect {view : State → Result} :
    Accounts (Parse.inspect view) :=
  ⟨fun _ => .unchanged⟩

instance accounts_attempt {parser : Parse Result} [inner : Accounts parser] :
    Accounts (Parse.attempt parser) where
  accounted state :=
    have known := inner.accounted state
    ⟨known.grows, nofun, known.consumes⟩

instance accounts_discard {parser : Parse Result} [Accounts parser] :
    Accounts (Functor.discard parser) :=
  inferInstanceAs (Accounts (parser >>= fun _ => pure ()))

instance accounts_failHere {fault : TokenKind → SyntaxFault} :
    Accounts (failHere fault : Parse Result) :=
  ⟨fun state => .of_faulty (state.errors_report _ _)⟩

instance accounts_failAt {fault : SyntaxFault} {span : Span} :
    Accounts (failAt fault span : Parse Result) :=
  ⟨fun state => .of_faulty (state.errors_report _ _)⟩

instance accounts_report {fault : SyntaxFault} {span : Span} :
    Accounts (report fault span) :=
  ⟨fun state => .of_faulty (state.errors_report _ _)⟩

instance accounts_addExpr {node : Expr} {span : Span} :
    Accounts (addExpr node span) :=
  ⟨fun _ => ⟨Nat.le_refl _, nofun, fun _ => .refl _⟩⟩

instance accounts_addStmt {node : Stmt} {span : Span} :
    Accounts (addStmt node span) :=
  ⟨fun _ => ⟨Nat.le_refl _, nofun, fun _ => .refl _⟩⟩

instance : Accounts currentKind := accounts_inspect
instance : Accounts currentSpan := accounts_inspect
instance : Accounts previousSpan := accounts_inspect
instance : Accounts atEnd := accounts_inspect
instance : Accounts isFull := accounts_inspect
instance : Accounts stepBound := accounts_inspect
instance : Accounts looksLikeTypeArguments := accounts_inspect

instance {mark : Symbol} : Accounts (atSymbol mark) := accounts_inspect
instance {word : Keyword} : Accounts (atKeyword word) := accounts_inspect
instance {id : ExprId} : Accounts (exprAt id) := accounts_inspect
instance {id : ExprId} : Accounts (spanOf id) := accounts_inspect

instance {start : Span} : Accounts (spanFrom start) := by
  unfold spanFrom
  infer_instance

/-! ## Consuming a token -/

/-- No token is left, or the one at the front is not the end of the file. -/
def State.NotAtEnd (state : State) : Prop :=
  ∀ token rest, state.rest = token :: rest → token.kind ≠ .endOfFile

theorem State.notAtEnd_of_current {state : State} {kind : TokenKind}
    (found : state.current.kind = kind) (notEnd : kind ≠ .endOfFile) :
    state.NotAtEnd := by
  rintro token rest front
  rw [State.current, front] at found
  exact found ▸ notEnd

theorem State.notAtEnd_of_isSymbol {state : State} {mark : Symbol}
    (found : state.current.kind.isSymbol mark = true) : state.NotAtEnd :=
  state.notAtEnd_of_current (isSymbol_iff.mp found) (by simp)

theorem State.notAtEnd_of_isKeyword {state : State} {word : Keyword}
    (found : state.current.kind.isKeyword word = true) : state.NotAtEnd :=
  state.notAtEnd_of_current (isKeyword_iff.mp found) (by simp)

namespace AccountsIn

variable {state : State}

theorem advance (notAtEnd : state.NotAtEnd) :
    AccountsIn state Grammar.advance := by
  unfold AccountsIn Grammar.advance State.advance
  split
  · exact .unchanged
  · next front =>
      refine ⟨Nat.le_refl _, nofun, fun _ => ?_⟩
      rw [front]
      exact .take (notAtEnd _ _ front) (.refl _)

theorem advanceThen {next : Unit → Parse Next} (notAtEnd : state.NotAtEnd)
    [∀ result, Accounts (next result)] :
    AccountsIn state (Grammar.advance >>= next) :=
  (advance notAtEnd).andThen

theorem takeName {text : String} (notAtEnd : state.NotAtEnd) :
    AccountsIn state (Grammar.takeName text) :=
  .inspect (.advanceThen notAtEnd)

theorem splitAngle {mark left : Symbol}
    (found : state.current.kind = .symbol mark)
    (splits : afterAngle? mark = some left) :
    AccountsIn state (Grammar.splitAngle left) := by
  unfold AccountsIn Grammar.splitAngle
  split
  · exact .unchanged
  · next token rest front =>
      refine ⟨Nat.le_refl _, nofun, fun _ => ?_⟩
      rw [State.current, front] at found
      rw [front]
      exact .split found splits (.refl _)

end AccountsIn

instance {mark : Symbol} : Accounts (eatSymbol mark) := by
  refine .inspect fun state => ?_
  split
  · next found => exact .advanceThen (state.notAtEnd_of_isSymbol found)
  · exact .pure

instance {word : Keyword} : Accounts (eatKeyword word) := by
  refine .inspect fun state => ?_
  split
  · next found => exact .advanceThen (state.notAtEnd_of_isKeyword found)
  · exact .pure

instance {name : String} : Accounts (eatIdentifier name) := by
  refine .inspect fun state => ?_
  split
  · next found =>
      refine .advanceThen (state.notAtEnd_of_current rfl fun isEnd => ?_)
      simp [isEnd, TokenKind.isIdentifier] at found
  · exact .pure

instance {mark : Symbol} : Accounts (expectSymbol mark) := by
  refine .inspect fun state => ?_
  split
  · next found => exact .advance (state.notAtEnd_of_isSymbol found)
  · exact .failHere

instance {word : Keyword} : Accounts (expectKeyword word) := by
  refine .inspect fun state => ?_
  split
  · next found => exact .advance (state.notAtEnd_of_isKeyword found)
  · exact .failHere

instance accounts_expectIdentifier : Accounts expectIdentifier := by
  refine .inspect fun state => ?_
  split
  · next found => exact .takeName (state.notAtEnd_of_current found (by simp))
  · next found =>
      split
      · exact .takeName (state.notAtEnd_of_current found (by simp))
      · exact .failHere
  · exact .failHere

instance accounts_expectPropertyName : Accounts expectPropertyName := by
  refine .inspect fun state => ?_
  split
  · next found => exact .takeName (state.notAtEnd_of_current found (by simp))
  · next found => exact .takeName (state.notAtEnd_of_current found (by simp))
  · exact .failHere

instance accounts_expectString : Accounts expectString := by
  refine .inspect fun state => ?_
  split
  · next found => exact .advanceThen (state.notAtEnd_of_current found (by simp))
  · exact .failHere

instance accounts_expectClosingAngle : Accounts expectClosingAngle := by
  refine .inspect fun state => ?_
  split
  · next mark found =>
      split
      · next splits => exact .splitAngle found splits
      · exact Accounts.accounted state
  · exact Accounts.accounted state

section

variable {item : Parse Result} [Accounts item]

instance accounts_itemsUntil {closing : Symbol} :
    ∀ bound, Accounts (itemsUntil closing item bound)
  | 0 => accounts_failHere
  | bound + 1 => by
      have : Accounts (itemsUntil closing item bound) :=
        accounts_itemsUntil bound
      unfold itemsUntil
      infer_instance

instance {closing : Symbol} : Accounts (listUntil closing item) := by
  unfold listUntil
  infer_instance

instance accounts_separatedItems : ∀ bound, Accounts (separatedItems item bound)
  | 0 => accounts_failHere
  | bound + 1 => by
      have := accounts_separatedItems bound
      unfold separatedItems
      infer_instance

instance : Accounts (separated item) := by
  unfold separated
  infer_instance

end

/-! ## Types -/

instance : Accounts typeSegment := by
  refine .inspect fun state => ?_
  split
  · next found => exact .takeName (state.notAtEnd_of_isKeyword found)
  · exact Accounts.accounted state

instance accounts_moreSegments : ∀ bound, Accounts (moreSegments bound)
  | 0 => accounts_failHere
  | bound + 1 => by
      have := accounts_moreSegments bound
      unfold moreSegments
      infer_instance

-- A parser with many steps takes large instances.
set_option synthInstance.maxSize 1024

instance {nested : Parse TypeExpr} [Accounts nested] :
    Accounts (primaryType nested) := by
  unfold primaryType
  dsimp only
  infer_instance

/-- The second of two tokens that are consumed was seen before. -/
theorem State.notAtEnd_advance {state : State} {kind : TokenKind}
    (found : state.lookAhead 1 = kind) (notEnd : kind ≠ .endOfFile) :
    state.advance.NotAtEnd := by
  rintro token rest front
  unfold State.advance at front
  split at front
  · next none =>
      rw [none] at front
      cases front
  · next behind =>
      cases front
      rw [State.lookAhead, behind] at found
      exact found ▸ notEnd

theorem AccountsIn.advanceTwice {state : State} {next : Unit → Parse Next}
    (first : state.NotAtEnd) (second : state.advance.NotAtEnd)
    [∀ result, Accounts (next result)] :
    AccountsIn state
      (Grammar.advance >>= fun _ => Grammar.advance >>= next) := by
  refine (AccountsIn.advance first).bind ?_
  rintro _ _ ⟨⟩
  exact .advanceThen second

instance accounts_arraySuffixes {start : Span} :
    ∀ bound type, Accounts (arraySuffixes start bound type)
  | 0, _ => accounts_pure
  | bound + 1, _ => by
      have (type : TypeExpr) : Accounts (arraySuffixes start bound type) :=
        accounts_arraySuffixes bound type
      refine .inspect fun state => ?_
      refine .inspect ?_
      split
      · next found =>
          obtain ⟨opens, closes⟩ := Bool.and_eq_true_iff.mp found
          exact .advanceTwice (state.notAtEnd_of_isSymbol opens)
            (state.notAtEnd_advance (isSymbol_iff.mp closes) (by simp))
      · exact .pure

instance {nested : Parse TypeExpr} [Accounts nested] :
    Accounts (typeStep nested) := by
  refine .bind fun start => .bind fun first => .bind fun bound =>
    .bind fun type => ?_
  refine .inspect fun state => ?_
  refine .inspect ?_
  split
  · next found =>
      obtain ⟨isPipe, isNull⟩ := Bool.and_eq_true_iff.mp found
      exact .advanceTwice (state.notAtEnd_of_isSymbol isPipe)
        (state.notAtEnd_advance (isKeyword_iff.mp isNull) (by simp))
  · exact .pure

instance accounts_typeAt : ∀ bound, Accounts (typeAt bound)
  | 0 => accounts_failHere
  | bound + 1 => by
      have := accounts_typeAt bound
      unfold typeAt
      infer_instance

instance : Accounts typeExpr := by
  unfold typeExpr
  infer_instance

/-! ## Expressions -/

section

variable {sub : ExprGoal → Parse ExprId} [∀ goal, Accounts (sub goal)]

instance : Accounts (arguments sub) := by
  unfold arguments
  infer_instance

instance accounts_objectEntry : Accounts (objectEntry sub) := by
  refine .inspect fun state => ?_
  split
  · next found =>
      exact (AccountsIn.takeName
        (state.notAtEnd_of_current found (by simp))).andThen
  · exact Accounts.accounted state

instance accounts_primaryNode : Accounts (primaryNode sub) := by
  refine .inspect fun state => ?_
  split
  case h_10 found =>
    split
    · exact .advanceThen (state.notAtEnd_of_current found (by simp))
    · exact Accounts.accounted state
  case h_14 => exact Accounts.accounted state
  all_goals
    rename_i found
    exact .advanceThen (state.notAtEnd_of_current found (by simp))

instance : Accounts (primary sub) := by
  unfold primary
  infer_instance

instance accounts_accesses : ∀ bound id, Accounts (accesses sub bound id)
  | 0, _ => accounts_pure
  | bound + 1, _ => by
      have := accounts_accesses bound
      refine .inspect fun state => ?_
      split
      case h_2 found =>
        refine .inspect ?_
        split
        · exact .advanceThen (state.notAtEnd_of_current found (by simp))
        · exact .pure
      case h_5 => exact .pure
      all_goals
        rename_i found
        exact .advanceThen (state.notAtEnd_of_current found (by simp))

instance accounts_unary : Accounts (unary sub) := by
  refine .inspect fun state => ?_
  split
  · next found =>
      refine .inspect ?_
      refine .advanceThen (state.notAtEnd_of_current rfl fun isEnd => ?_)
      rw [isEnd] at found
      cases found
  · exact Accounts.accounted state

instance accounts_binaryRest {least : Nat} :
    ∀ bound left, Accounts (binaryRest sub least bound left)
  | 0, _ => accounts_pure
  | bound + 1, _ => by
      have (left : ExprId) : Accounts (binaryRest sub least bound left) :=
        accounts_binaryRest bound left
      refine .inspect fun state => ?_
      split
      · next isCast =>
          obtain ⟨isAs, -⟩ := Bool.and_eq_true_iff.mp isCast
          exact .advanceThen (state.notAtEnd_of_isKeyword isAs)
      · refine .inspect ?_
        split
        · exact .pure
        · next found =>
            split
            · exact .pure
            · refine .advanceThen
                (state.notAtEnd_of_current rfl fun isEnd => ?_)
              rw [isEnd] at found
              cases found

instance {least : Nat} : Accounts (binary sub least) := by
  unfold binary
  infer_instance

instance : Accounts (conditional sub) := by
  unfold conditional
  infer_instance

instance accounts_assignment : Accounts (assignment sub) := by
  refine .bind fun target => ?_
  refine .inspect fun state => ?_
  split
  · exact .pure
  · next found =>
      refine .inspect ?_
      split
      · refine .advanceThen (state.notAtEnd_of_current rfl fun isEnd => ?_)
        rw [isEnd] at found
        cases found
      · exact Accounts.accounted state

instance accounts_nested {parser : Parse Result} [inner : Accounts parser] :
    Accounts (nested parser) where
  accounted state := by
    unfold AccountsIn nested
    split
    · exact AccountsIn.failHere
    · have known := inner.accounted { state with depth := state.depth + 1 }
      exact ⟨known.grows, known.signals, known.consumes⟩

instance accounts_goalStep : ∀ goal, Accounts (goalStep sub goal)
  | .expression => inferInstanceAs (Accounts (nested (assignment sub)))
  | .assignment => inferInstanceAs (Accounts (assignment sub))
  | .binary least => inferInstanceAs (Accounts (binary sub least))
  | .unary => inferInstanceAs (Accounts (unary sub))

end

instance accounts_goalAt : ∀ bound goal, Accounts (goalAt bound goal)
  | 0, _ => accounts_failHere
  | bound + 1, goal => by
      have := accounts_goalAt bound
      unfold goalAt
      infer_instance

instance : Accounts expression := by
  unfold expression
  infer_instance

instance : Accounts decoratorArguments := by
  unfold decoratorArguments
  infer_instance

/-! ## Statements -/

/-- What follows a failed attempt need not account for the tokens, because an
error has been recorded. -/
theorem Accounts.recover {parser : Parse Result}
    {next : Option Result → Parse Next} [inner : Accounts parser]
    (success : ∀ result, Accounts (next (some result)))
    (failure : ∀ later, later.errors ≤ (next none later).2.errors) :
    Accounts (Parse.attempt parser >>= next) where
  accounted state := by
    have first := inner.accounted state
    unfold AccountsIn at first ⊢
    rcases parsed : parser state with ⟨_ | result, middle⟩
    · rw [parsed] at first
      have unfolded : (Parse.attempt parser >>= next) state =
          next none middle := by
        simp only [Bind.bind, Parse.attempt, parsed]
      rw [unfolded]
      exact .of_faulty (Nat.lt_of_lt_of_le (first.signals rfl) (failure middle))
    · have unfolded : (Parse.attempt parser >>= next) state =
          (parser >>= fun result => next (some result)) state := by
        simp only [Bind.bind, Parse.attempt, parsed]
      rw [unfolded]
      exact AccountsIn.andThen first

theorem State.errors_advance (state : State) :
    state.advance.errors = state.errors := by
  unfold State.advance
  split <;> rfl

/-- Going on after a faulty statement changes no more than the place. -/
theorem recoverStatement_errors (start : Span) (state : State) :
    ∃ moved, recoverStatement start state = (some (), moved) ∧
      moved.errors = state.errors := by
  let skipped := (skipStatement state).2
  have unfolded : recoverStatement start state =
      (if (skipped.current.span = start &&
          !skipped.current.kind.isSymbol .closeBrace) = true then advance
        else pure () : Parse Unit) skipped := rfl
  rw [unfolded]
  split
  · exact ⟨_, rfl, skipped.errors_advance⟩
  · exact ⟨_, rfl, rfl⟩

section

variable {loop : Parse Result} [inner : Accounts loop]

theorem errors_le_recoverStatement (start : Span) (state : State) :
    state.errors ≤
      ((recoverStatement start >>= fun _ => loop) state).2.errors := by
  obtain ⟨moved, recovers, same⟩ := recoverStatement_errors start state
  have further := (inner.accounted moved).grows
  simpa only [Bind.bind, recovers, same] using further

theorem errors_le_skipBy (rule : Span → List Token → Span × List Token)
    (state : State) :
    state.errors ≤ ((skipBy rule >>= fun _ => loop) state).2.errors :=
  (inner.accounted (skipBy rule state).2).grows

end

instance : Accounts optionalType := by
  unfold optionalType
  infer_instance

instance : Accounts optionalInitializer := by
  unfold optionalInitializer
  infer_instance

instance : Accounts optionalSemicolon := by
  unfold optionalSemicolon
  infer_instance

instance {kind : BindingKind} : Accounts (bindingNode kind) := by
  unfold bindingNode
  infer_instance

instance : Accounts returnNode := by
  unfold returnNode
  infer_instance

section

variable {statement : Parse StmtId} [Accounts statement]

instance accounts_statementsUntilBrace :
    ∀ bound, Accounts (statementsUntilBrace statement bound)
  | 0 => accounts_pure
  | bound + 1 => by
      have := accounts_statementsUntilBrace bound
      refine .bind fun isClosed => .bind fun isEnd =>
        .bind fun isFull => .ite ?_
      refine .bind fun start => .recover (fun _ => inferInstance) ?_
      exact errors_le_recoverStatement start

instance : Accounts (blockOf statement) := by
  unfold blockOf
  infer_instance

instance : Accounts (branchNode statement) := by
  unfold branchNode
  infer_instance

instance : Accounts (loopNode statement) := by
  unfold loopNode
  infer_instance

instance accounts_statementNode : Accounts (statementNode statement) := by
  refine .inspect fun state => ?_
  split
  case h_1 => exact Accounts.accounted state
  case h_10 => exact Accounts.accounted state
  all_goals
    rename_i found
    exact .advanceThen (state.notAtEnd_of_current found (by simp))

instance : Accounts (statementStep statement) := by
  unfold statementStep
  infer_instance

end

instance accounts_statementAt : ∀ bound, Accounts (statementAt bound)
  | 0 => accounts_failHere
  | bound + 1 => by
      have := accounts_statementAt bound
      unfold statementAt
      infer_instance

instance : Accounts block := by
  unfold block
  infer_instance

/-! ## Declarations -/

instance {start : Span} : Accounts (decoratorFrom start) := by
  unfold decoratorFrom
  dsimp only
  infer_instance

instance accounts_decoratorsAt : ∀ bound, Accounts (decoratorsAt bound)
  | 0 => accounts_failHere
  | bound + 1 => by
      have := accounts_decoratorsAt bound
      unfold decoratorsAt
      infer_instance

instance : Accounts decorators := by
  unfold decorators
  infer_instance

instance accounts_externalName {decorators : List Decorator} :
    Accounts (externalName decorators) := by
  unfold externalName
  split
  · exact accounts_pure
  · refine .bind fun arena => ?_
    split <;> infer_instance

instance accounts_parameterModifier : Accounts parameterModifier := by
  refine .bind fun next => .bind fun kind => ?_
  split <;> infer_instance

theorem notAtEnd_of_parameterModifier {state later : State}
    (found : parameterModifier state = (some true, later)) :
    later.NotAtEnd := by
  simp only [parameterModifier, currentKind, Parse.inspect, Bind.bind]
    at found
  generalize current : state.current.kind = kind at found
  cases kind with
  | keyword word =>
      have same : later = state := by
        cases word <;> exact (congrArg Prod.snd found).symm
      exact same ▸ state.notAtEnd_of_current current (by simp)
  | _ => cases found

instance accounts_skipParameterModifiers :
    ∀ bound, Accounts (skipParameterModifiers bound)
  | 0 => accounts_pure
  | bound + 1 => by
      have := accounts_skipParameterModifiers bound
      refine ⟨fun state => (Accounts.accounted state).bind ?_⟩
      intro isModifier later parsed
      split
      · next found =>
          exact .advanceThen (notAtEnd_of_parameterModifier (found ▸ parsed))
      · exact .pure

instance : Accounts parameter := by
  unfold parameter
  infer_instance

instance : Accounts parameters := by
  unfold parameters
  infer_instance

instance : Accounts typeParameter := by
  unfold typeParameter
  infer_instance

instance : Accounts skipTypeParameters := by
  unfold skipTypeParameters
  infer_instance

instance : Accounts optionalBody := by
  unfold optionalBody
  infer_instance

instance {decorators : List Decorator} {isExported isDeclared : Bool}
    {start : Span} :
    Accounts (functionDecl decorators isExported isDeclared start) := by
  unfold functionDecl
  infer_instance

instance accounts_memberModifiers : ∀ bound, Accounts (memberModifiers bound)
  | 0 => accounts_pure
  | bound + 1 => by
      have := accounts_memberModifiers bound
      refine .inspect fun state => ?_
      refine .inspect ?_
      split
      · next found =>
          obtain ⟨isModifier, -⟩ := Bool.and_eq_true_iff.mp found
          refine .advanceThen (state.notAtEnd_of_current rfl fun isEnd => ?_)
          rw [isEnd] at isModifier
          cases isModifier
      · exact .pure

instance {start : Span} {decorators : List Decorator} {name : Name} :
    Accounts (methodFrom start decorators name) := by
  unfold methodFrom
  infer_instance

instance {start : Span} {name : Name} : Accounts (fieldFrom start name) := by
  unfold fieldFrom
  dsimp only
  infer_instance

instance : Accounts classMember := by
  unfold classMember
  infer_instance

instance accounts_membersUntilBrace :
    ∀ bound, Accounts (membersUntilBrace bound)
  | 0 => accounts_pure
  | bound + 1 => by
      have := accounts_membersUntilBrace bound
      refine .bind fun isClosed => .bind fun isEnd =>
        .ite ?_
      refine .bind fun isSemicolon => .ite ?_
      refine .bind fun isFull => .ite ?_
      exact .recover (fun _ => inferInstance)
        (errors_le_skipBy _)

instance : Accounts optionalBase := by
  unfold optionalBase
  infer_instance

instance {decorators : List Decorator} {isExported : Bool} {start : Span} :
    Accounts (classDecl decorators isExported start) := by
  unfold classDecl
  dsimp only
  refine .bind fun _ => .bind fun name => .bind fun _ => .bind fun base =>
    .bind fun hasInterfaces => ?_
  split <;> infer_instance

theorem AccountsIn.variableDecl {state : State} (notAtEnd : state.NotAtEnd)
    {kind : BindingKind} {decorators : List Decorator} {isExported : Bool}
    {start : Span} :
    AccountsIn state
      (Grammar.variableDecl kind decorators isExported start) :=
  .advanceThen notAtEnd

instance : Accounts optionalRename := by
  unfold optionalRename
  infer_instance

instance : Accounts exportMember := by
  unfold exportMember
  infer_instance

instance {start : Span} : Accounts (exportDecl start) := by
  unfold exportDecl
  dsimp only
  infer_instance

instance : Accounts importMember := by
  unfold importMember
  infer_instance

instance accounts_importNames : Accounts importNames := by
  refine .inspect fun state => ?_
  split
  · exact .pure
  · next found =>
      exact .advanceThen (state.notAtEnd_of_current found (by simp))
  · exact Accounts.accounted state

instance {start : Span} : Accounts (importDecl start) := by
  unfold importDecl
  infer_instance

instance accounts_declarationItem {decorators : List Decorator}
    {isExported isDeclared : Bool} {start : Span} :
    Accounts (declarationItem decorators isExported isDeclared start) := by
  refine .inspect fun state => ?_
  split
  case h_3 found | h_4 found | h_5 found =>
    exact (AccountsIn.variableDecl
      (state.notAtEnd_of_current found (by simp))).andThen
  all_goals exact Accounts.accounted state

instance : Accounts item := by
  unfold item
  infer_instance

instance accounts_itemsToEnd : ∀ bound, Accounts (itemsToEnd bound)
  | 0 => accounts_pure
  | bound + 1 => by
      have := accounts_itemsToEnd bound
      refine .bind fun isEnd => .bind fun isFull =>
        .ite ?_
      refine .bind fun isSemicolon => .ite ?_
      exact .recover (fun _ => inferInstance)
        (errors_le_skipBy _)

instance : Accounts items := by
  unfold items
  infer_instance

/-! ## Programs -/

theorem kind_finishOf (tokens : List Token) :
    (finishOf tokens).kind = .endOfFile := by
  unfold finishOf
  split
  · split
    · next isEnd => exact isEndOfFile_iff.mp isEnd
    · rfl
  · rfl

end PluginSurface.Grammar
