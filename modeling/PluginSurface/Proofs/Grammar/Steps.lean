import PluginSurface.Proofs.Grammar.Accounting

/-!
# Steps of parsers

A parser takes steps of a few kinds: it moves along the tokens, reports faults,
stores nodes, and reads what stands in brackets one level deeper. A relation
between states that the steps of each kind keep to holds between the state that
a parser starts in and the one that it leaves, whether it succeeds or fails.
-/

namespace PluginSurface.Grammar

variable {Result Next : Type}

/-! ## What is left -/

/-- The last span that was passed and the tokens that are left, before and after
tokens are taken from the front. A symbol at the front may lose its first `>`. -/
inductive Onward : Span → List Token → Span → List Token → Prop where
  | refl (previous : Span) (tokens : List Token) :
      Onward previous tokens previous tokens
  | take {previous last : Span} {token : Token} {rest left : List Token}
      (further : Onward token.span rest last left) :
      Onward previous (token :: rest) last left
  | split {previous last span : Span} {token : Token} {mark half : Symbol}
      {rest left : List Token} (found : token.kind = .symbol mark)
      (splits : afterAngle? mark = some half)
      (further : Onward previous (⟨.symbol half, span⟩ :: rest) last left) :
      Onward previous (token :: rest) last left

namespace Onward

variable {previous last : Span} {tokens left : List Token}

theorem trans {middle : Span} {between : List Token}
    (first : Onward previous tokens middle between)
    (second : Onward middle between last left) :
    Onward previous tokens last left := by
  induction first with
  | refl => exact second
  | take _ inductionHypothesis => exact .take (inductionHypothesis second)
  | split found splits _ inductionHypothesis =>
      exact .split found splits (inductionHypothesis second)

theorem length_le (onward : Onward previous tokens last left) :
    left.length ≤ tokens.length := by
  induction onward with
  | refl => exact Nat.le_refl _
  | take _ inductionHypothesis => exact Nat.le_succ_of_le inductionHypothesis
  | split _ _ _ inductionHypothesis => exact inductionHypothesis

end Onward

/-! ## Relations that hold along a run -/

/-- A relation between an earlier and a later state that the steps of every kind
keep to. -/
structure StepRelation where
  Holds : State → State → Prop
  trans : ∀ {state middle later : State}, Holds state middle →
    Holds middle later → Holds state later
  move : ∀ (state : State) {previous : Span} {rest : List Token},
    Onward state.previous state.rest previous rest →
      Holds state { state with previous := previous, rest := rest }
  report : ∀ (state : State) (fault : SyntaxFault) (span : Span),
    Holds state (state.report fault span)
  store : ∀ (state : State) (arena : Arena),
    Holds state { state with arena := arena }
  deepen : ∀ {state later : State},
    Holds { state with depth := state.depth + 1 } later →
      Holds state { later with depth := state.depth }

variable {relation : StepRelation}

theorem StepRelation.refl (relation : StepRelation) (state : State) :
    relation.Holds state state :=
  relation.move state (.refl _ _)

/-- A parser that keeps to a relation in a state. -/
def FollowsIn (relation : StepRelation) (state : State)
    (parser : Parse Result) : Prop :=
  relation.Holds state (parser state).2

/-- A parser that keeps to a relation in every state. -/
class Follows (relation : StepRelation) (parser : Parse Result) : Prop where
  holds : ∀ state, FollowsIn relation state parser

namespace Follows

theorem of_state {parser : Parse Result} {state later : State}
    {result : Option Result} [follows : Follows relation parser]
    (ran : parser state = (result, later)) : relation.Holds state later := by
  have holds := follows.holds state
  rwa [FollowsIn, ran] at holds

theorem bind {parser : Parse Result} {next : Result → Parse Next}
    [first : Follows relation parser]
    (second : ∀ result, Follows relation (next result)) :
    Follows relation (parser >>= next) where
  holds state := by
    rcases ran : parser state with ⟨_ | result, middle⟩
    · have unfolded : (parser >>= next) state = (none, middle) := by
        simp only [Bind.bind, ran]
      rw [FollowsIn, unfolded]
      exact of_state ran
    · have unfolded : (parser >>= next) state = next result middle := by
        simp only [Bind.bind, ran]
      rw [FollowsIn, unfolded]
      exact relation.trans (of_state ran) ((second result).holds middle)

theorem ite {condition : Prop} [Decidable condition]
    {whenTrue whenFalse : Parse Result} [left : Follows relation whenTrue]
    (right : Follows relation whenFalse) :
    Follows relation (if condition then whenTrue else whenFalse) := by
  split
  · exact left
  · exact right

end Follows

/-! ## Parsers -/

instance follows_pure {result : Result} :
    Follows relation (pure result : Parse Result) :=
  ⟨relation.refl⟩

instance follows_bind {parser : Parse Result} {next : Result → Parse Next}
    [Follows relation parser] [∀ result, Follows relation (next result)] :
    Follows relation (parser >>= next) :=
  .bind fun _ => inferInstance

instance follows_ite {condition : Prop} [Decidable condition]
    {whenTrue whenFalse : Parse Result} [Follows relation whenTrue]
    [Follows relation whenFalse] :
    Follows relation (if condition then whenTrue else whenFalse) :=
  .ite inferInstance

instance follows_inspect {view : State → Result} :
    Follows relation (Parse.inspect view) :=
  ⟨relation.refl⟩

instance follows_attempt {parser : Parse Result}
    [inner : Follows relation parser] :
    Follows relation (Parse.attempt parser) :=
  ⟨inner.holds⟩

instance follows_discard {parser : Parse Result} [Follows relation parser] :
    Follows relation (Functor.discard parser) :=
  inferInstanceAs (Follows relation (parser >>= fun _ => pure ()))

instance follows_failHere {fault : TokenKind → SyntaxFault} :
    Follows relation (failHere fault : Parse Result) :=
  ⟨fun state => relation.report state _ _⟩

instance follows_failAt {fault : SyntaxFault} {span : Span} :
    Follows relation (failAt fault span : Parse Result) :=
  ⟨fun state => relation.report state _ _⟩

instance follows_report {fault : SyntaxFault} {span : Span} :
    Follows relation (report fault span) :=
  ⟨fun state => relation.report state _ _⟩

instance follows_addExpr {node : Expr} {span : Span} :
    Follows relation (addExpr node span) :=
  ⟨fun state => relation.store state _⟩

instance follows_addStmt {node : Stmt} {span : Span} :
    Follows relation (addStmt node span) :=
  ⟨fun state => relation.store state _⟩

instance follows_advance : Follows relation advance where
  holds state := by
    unfold FollowsIn advance State.advance
    split
    · exact relation.refl state
    · next token rest front =>
        apply relation.move state
        rw [front]
        exact .take (.refl _ _)

instance : Follows relation currentKind := follows_inspect
instance : Follows relation currentSpan := follows_inspect
instance : Follows relation previousSpan := follows_inspect
instance : Follows relation atEnd := follows_inspect
instance : Follows relation isFull := follows_inspect
instance : Follows relation stepBound := follows_inspect
instance : Follows relation looksLikeTypeArguments := follows_inspect

instance {mark : Symbol} : Follows relation (atSymbol mark) := follows_inspect
instance {word : Keyword} : Follows relation (atKeyword word) := follows_inspect
instance {id : ExprId} : Follows relation (exprAt id) := follows_inspect
instance {id : ExprId} : Follows relation (spanOf id) := follows_inspect

instance {start : Span} : Follows relation (spanFrom start) := by
  unfold spanFrom
  infer_instance

instance {mark : Symbol} : Follows relation (eatSymbol mark) := by
  unfold eatSymbol
  infer_instance

instance {word : Keyword} : Follows relation (eatKeyword word) := by
  unfold eatKeyword
  infer_instance

instance {name : String} : Follows relation (eatIdentifier name) := by
  unfold eatIdentifier
  infer_instance

instance {mark : Symbol} : Follows relation (expectSymbol mark) := by
  unfold expectSymbol
  infer_instance

instance {word : Keyword} : Follows relation (expectKeyword word) := by
  unfold expectKeyword
  infer_instance

instance {text : String} : Follows relation (takeName text) := by
  unfold takeName
  infer_instance

instance : Follows relation expectIdentifier := by
  refine .bind fun kind => ?_
  split <;> infer_instance

instance : Follows relation expectPropertyName := by
  refine .bind fun kind => ?_
  split <;> infer_instance

instance : Follows relation expectString := by
  refine .bind fun kind => ?_
  split <;> infer_instance

theorem followsIn_splitAngle {state : State} {mark half : Symbol}
    (found : state.current.kind = .symbol mark)
    (splits : afterAngle? mark = some half) :
    FollowsIn relation state (splitAngle half) := by
  unfold FollowsIn splitAngle
  split
  · exact relation.refl state
  · next token rest front =>
      rw [State.current, front] at found
      apply relation.move state
      rw [front]
      exact .split found splits (.refl _ _)

instance follows_expectClosingAngle : Follows relation expectClosingAngle where
  holds state := by
    change FollowsIn relation state (match state.current.kind with
      | .symbol mark =>
          match afterAngle? mark with
          | some left => splitAngle left
          | none => expectSymbol .greater
      | _ => expectSymbol .greater)
    split
    · next mark found =>
        split
        · next half splits => exact followsIn_splitAngle found splits
        · exact Follows.holds state
    · exact Follows.holds state

section

variable {item : Parse Result} [Follows relation item]

instance follows_itemsUntil {closing : Symbol} :
    ∀ bound, Follows relation (itemsUntil closing item bound)
  | 0 => follows_failHere
  | bound + 1 => by
      have : Follows relation (itemsUntil closing item bound) :=
        follows_itemsUntil bound
      unfold itemsUntil
      infer_instance

instance {closing : Symbol} : Follows relation (listUntil closing item) := by
  unfold listUntil
  infer_instance

instance follows_separatedItems :
    ∀ bound, Follows relation (separatedItems item bound)
  | 0 => follows_failHere
  | bound + 1 => by
      have := follows_separatedItems bound
      unfold separatedItems
      infer_instance

instance : Follows relation (separated item) := by
  unfold separated
  infer_instance

end

/-! ### Types -/

instance : Follows relation typeSegment := by
  unfold typeSegment
  infer_instance

instance follows_moreSegments : ∀ bound, Follows relation (moreSegments bound)
  | 0 => follows_failHere
  | bound + 1 => by
      have := follows_moreSegments bound
      unfold moreSegments
      infer_instance

-- A parser with many steps takes large instances.
set_option synthInstance.maxSize 4096

instance {nested : Parse TypeExpr} [Follows relation nested] :
    Follows relation (primaryType nested) := by
  unfold primaryType
  dsimp only
  infer_instance

instance follows_arraySuffixes {start : Span} :
    ∀ bound type, Follows relation (arraySuffixes start bound type)
  | 0, _ => follows_pure
  | bound + 1, _ => by
      have (type : TypeExpr) : Follows relation (arraySuffixes start bound type) :=
        follows_arraySuffixes bound type
      unfold arraySuffixes
      infer_instance

instance {nested : Parse TypeExpr} [Follows relation nested] :
    Follows relation (typeStep nested) := by
  unfold typeStep
  infer_instance

instance follows_typeAt : ∀ bound, Follows relation (typeAt bound)
  | 0 => follows_failHere
  | bound + 1 => by
      have := follows_typeAt bound
      unfold typeAt
      infer_instance

instance : Follows relation typeExpr := by
  unfold typeExpr
  infer_instance

/-! ### Expressions -/

instance follows_nested {parser : Parse Result}
    [inner : Follows relation parser] : Follows relation (nested parser) where
  holds state := by
    unfold FollowsIn nested
    split
    · exact Follows.holds state
    · exact relation.deepen (inner.holds { state with depth := state.depth + 1 })

section

variable {sub : ExprGoal → Parse ExprId} [∀ goal, Follows relation (sub goal)]

instance : Follows relation (arguments sub) := by
  unfold arguments
  infer_instance

instance : Follows relation (objectEntry sub) := by
  unfold objectEntry
  refine .bind fun kind => ?_
  split <;> infer_instance

instance : Follows relation (primaryNode sub) := by
  unfold primaryNode
  refine .bind fun kind => ?_
  split <;> infer_instance

instance : Follows relation (primary sub) := by
  unfold primary
  infer_instance

instance follows_accesses :
    ∀ bound expr, Follows relation (accesses sub bound expr)
  | 0, _ => follows_pure
  | bound + 1, expr => by
      have (expr : ExprId) : Follows relation (accesses sub bound expr) :=
        follows_accesses bound expr
      unfold accesses
      refine .bind fun kind => ?_
      split <;> infer_instance

instance : Follows relation (unary sub) := by
  unfold unary
  refine .bind fun kind => ?_
  split <;> infer_instance

instance follows_binaryRest {least : Nat} :
    ∀ bound left, Follows relation (binaryRest sub least bound left)
  | 0, _ => follows_pure
  | bound + 1, left => by
      have (left : ExprId) : Follows relation (binaryRest sub least bound left) :=
        follows_binaryRest bound left
      unfold binaryRest
      refine .bind fun isCast => .ite (.bind fun kind => ?_)
      split <;> infer_instance

instance {least : Nat} : Follows relation (binary sub least) := by
  unfold binary
  infer_instance

instance : Follows relation (conditional sub) := by
  unfold conditional
  infer_instance

instance : Follows relation (assignment sub) := by
  unfold assignment
  refine .bind fun target => .bind fun kind => ?_
  split <;> infer_instance

instance follows_goalStep : ∀ goal, Follows relation (goalStep sub goal)
  | .expression => inferInstanceAs (Follows relation (nested (assignment sub)))
  | .assignment => inferInstanceAs (Follows relation (assignment sub))
  | .binary least => inferInstanceAs (Follows relation (binary sub least))
  | .unary => inferInstanceAs (Follows relation (unary sub))

end

instance follows_goalAt : ∀ bound goal, Follows relation (goalAt bound goal)
  | 0, _ => follows_failHere
  | bound + 1, goal => by
      have := follows_goalAt bound
      unfold goalAt
      infer_instance

instance : Follows relation expression := by
  unfold expression
  infer_instance

instance : Follows relation decoratorArguments := by
  unfold decoratorArguments
  infer_instance

/-! ### Statements -/

theorem onward_statementBoundary (previous : Span) (tokens : List Token) :
    Onward previous tokens (statementBoundary previous tokens).1
      (statementBoundary previous tokens).2 := by
  induction tokens generalizing previous with
  | nil => exact .refl _ _
  | cons token rest inductionHypothesis =>
      unfold statementBoundary
      split
      · exact .refl _ _
      · split
        · exact .take (.refl _ _)
        · split
          · exact .refl _ _
          · exact .take (inductionHypothesis _)

theorem follows_skipBy {rule : Span → List Token → Span × List Token}
    (onward : ∀ previous tokens,
      Onward previous tokens (rule previous tokens).1 (rule previous tokens).2) :
    Follows relation (skipBy rule) :=
  ⟨fun state => relation.move state (onward _ _)⟩

instance follows_skipStatement : Follows relation skipStatement :=
  follows_skipBy onward_statementBoundary

instance {start : Span} : Follows relation (recoverStatement start) := by
  unfold recoverStatement
  infer_instance

instance : Follows relation optionalType := by
  unfold optionalType
  infer_instance

instance : Follows relation optionalInitializer := by
  unfold optionalInitializer
  infer_instance

instance : Follows relation optionalSemicolon := by
  unfold optionalSemicolon
  infer_instance

instance {kind : BindingKind} : Follows relation (bindingNode kind) := by
  unfold bindingNode
  infer_instance

instance : Follows relation returnNode := by
  unfold returnNode
  infer_instance

section

variable {statement : Parse StmtId} [Follows relation statement]

instance follows_statementsUntilBrace :
    ∀ bound, Follows relation (statementsUntilBrace statement bound)
  | 0 => follows_pure
  | bound + 1 => by
      have := follows_statementsUntilBrace bound
      unfold statementsUntilBrace
      refine .bind fun isClosed => .bind fun isEnd => .bind fun isFull => .ite ?_
      refine .bind fun start => .bind fun found => ?_
      split <;> infer_instance

instance : Follows relation (blockOf statement) := by
  unfold blockOf
  infer_instance

instance : Follows relation (branchNode statement) := by
  unfold branchNode
  infer_instance

instance : Follows relation (loopNode statement) := by
  unfold loopNode
  infer_instance

instance : Follows relation (statementNode statement) := by
  unfold statementNode
  refine .bind fun kind => ?_
  split <;> infer_instance

instance : Follows relation (statementStep statement) := by
  unfold statementStep
  infer_instance

end

instance follows_statementAt : ∀ bound, Follows relation (statementAt bound)
  | 0 => follows_failHere
  | bound + 1 => by
      have := follows_statementAt bound
      unfold statementAt
      infer_instance

instance : Follows relation block := by
  unfold block
  infer_instance

/-! ### Declarations -/

instance {start : Span} : Follows relation (decoratorFrom start) := by
  unfold decoratorFrom
  dsimp only
  infer_instance

instance follows_decoratorsAt : ∀ bound, Follows relation (decoratorsAt bound)
  | 0 => follows_failHere
  | bound + 1 => by
      have := follows_decoratorsAt bound
      unfold decoratorsAt
      infer_instance

instance : Follows relation decorators := by
  unfold decorators
  infer_instance

instance {decorators : List Decorator} :
    Follows relation (externalName decorators) := by
  unfold externalName
  split
  · exact follows_pure
  · refine .bind fun arena => ?_
    split <;> infer_instance

instance : Follows relation parameterModifier := by
  refine .bind fun next => .bind fun kind => ?_
  split <;> infer_instance

instance follows_skipParameterModifiers :
    ∀ bound, Follows relation (skipParameterModifiers bound)
  | 0 => follows_pure
  | bound + 1 => by
      have := follows_skipParameterModifiers bound
      unfold skipParameterModifiers
      infer_instance

instance : Follows relation parameter := by
  unfold parameter
  infer_instance

instance : Follows relation parameters := by
  unfold parameters
  infer_instance

instance : Follows relation typeParameter := by
  unfold typeParameter
  infer_instance

instance : Follows relation skipTypeParameters := by
  unfold skipTypeParameters
  infer_instance

instance : Follows relation optionalBody := by
  unfold optionalBody
  infer_instance

instance {decorators : List Decorator} {isExported isDeclared : Bool}
    {start : Span} :
    Follows relation (functionDecl decorators isExported isDeclared start) := by
  unfold functionDecl
  infer_instance

instance follows_memberModifiers :
    ∀ bound, Follows relation (memberModifiers bound)
  | 0 => follows_pure
  | bound + 1 => by
      have := follows_memberModifiers bound
      unfold memberModifiers
      infer_instance

instance {start : Span} {decorators : List Decorator} {name : Name} :
    Follows relation (methodFrom start decorators name) := by
  unfold methodFrom
  infer_instance

instance {start : Span} {name : Name} :
    Follows relation (fieldFrom start name) := by
  unfold fieldFrom
  dsimp only
  infer_instance

instance : Follows relation classMember := by
  unfold classMember
  infer_instance

theorem onward_memberBoundary (depth : Nat) (previous : Span)
    (tokens : List Token) :
    Onward previous tokens (memberBoundary depth previous tokens).1
      (memberBoundary depth previous tokens).2 := by
  induction tokens generalizing depth previous with
  | nil => exact .refl _ _
  | cons token rest inductionHypothesis =>
      unfold memberBoundary
      split
      · exact .refl _ _
      · split
        · exact .take (.refl _ _)
        · split
          · exact .take (inductionHypothesis _ _)
          · split
            · split
              · exact .refl _ _
              · exact .take (.refl _ _)
              · exact .take (inductionHypothesis _ _)
            · exact .take (inductionHypothesis _ _)

instance follows_skipMember : Follows relation skipMember :=
  follows_skipBy (onward_memberBoundary 0)

instance follows_membersUntilBrace :
    ∀ bound, Follows relation (membersUntilBrace bound)
  | 0 => follows_pure
  | bound + 1 => by
      have := follows_membersUntilBrace bound
      unfold membersUntilBrace
      refine .bind fun isClosed => .bind fun isEnd => .ite ?_
      refine .bind fun isSemicolon => .ite (.bind fun isFull => .ite ?_)
      refine .bind fun found => ?_
      split <;> infer_instance

instance : Follows relation optionalBase := by
  unfold optionalBase
  infer_instance

instance {decorators : List Decorator} {isExported : Bool} {start : Span} :
    Follows relation (classDecl decorators isExported start) := by
  unfold classDecl
  dsimp only
  infer_instance

instance {kind : BindingKind} {decorators : List Decorator} {isExported : Bool}
    {start : Span} :
    Follows relation (variableDecl kind decorators isExported start) := by
  unfold variableDecl
  infer_instance

instance : Follows relation optionalRename := by
  unfold optionalRename
  infer_instance

instance : Follows relation exportMember := by
  unfold exportMember
  infer_instance

instance {start : Span} : Follows relation (exportDecl start) := by
  unfold exportDecl
  dsimp only
  infer_instance

instance : Follows relation importMember := by
  unfold importMember
  infer_instance

instance : Follows relation importNames := by
  refine .bind fun kind => ?_
  split <;> infer_instance

instance {start : Span} : Follows relation (importDecl start) := by
  unfold importDecl
  infer_instance

instance {decorators : List Decorator} {isExported isDeclared : Bool}
    {start : Span} :
    Follows relation (declarationItem decorators isExported isDeclared start) := by
  refine .bind fun kind => ?_
  split <;> infer_instance

instance : Follows relation item := by
  unfold item
  infer_instance

theorem onward_itemBoundary (depth : Nat) (previous : Span)
    (tokens : List Token) :
    Onward previous tokens (itemBoundary depth previous tokens).1
      (itemBoundary depth previous tokens).2 := by
  induction tokens generalizing depth previous with
  | nil => exact .refl _ _
  | cons token rest inductionHypothesis =>
      unfold itemBoundary
      split
      · exact .refl _ _
      · split
        · exact .take (inductionHypothesis _ _)
        · split
          · split
            · exact .take (inductionHypothesis _ _)
            · exact .take (.refl _ _)
            · exact .take (inductionHypothesis _ _)
          · split
            · exact .take (.refl _ _)
            · split
              · exact .refl _ _
              · exact .take (inductionHypothesis _ _)

instance follows_skipItem : Follows relation skipItem :=
  follows_skipBy (onward_itemBoundary 0)

instance follows_itemsToEnd : ∀ bound, Follows relation (itemsToEnd bound)
  | 0 => follows_pure
  | bound + 1 => by
      have := follows_itemsToEnd bound
      unfold itemsToEnd
      refine .bind fun isEnd => .bind fun isFull => .ite ?_
      refine .bind fun isSemicolon => .ite (.bind fun found => ?_)
      split <;> infer_instance

instance : Follows relation items := by
  unfold items
  infer_instance

end PluginSurface.Grammar
