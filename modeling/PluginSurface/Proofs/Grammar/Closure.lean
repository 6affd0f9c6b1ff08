import PluginSurface.Grammar.Program
import PluginSurface.Proofs.Syntax.Ownership

/-!
# Parsed programs are well formed

A parser stores a node only after the nodes it refers to, and refers to a node
once only: what it returns refers to stored nodes that nothing else refers to.
`Stores` says this of one parser and composes along `>>=`: what one parser
returned is owned when the next one runs. The main result is that `parse` gives
well-formed programs, for all tokens.
-/

namespace PluginSurface

namespace Grammar

open Parse

variable {Result Next : Type}

/-- If the arena owns the points in `needs` among others, the parser leaves it
owning what its result refers to and the others. The points in `needs` are then
used up. -/
def Stores (needs : List Point) (parser : Parse Result)
    (holds : Result → List Point) : Prop :=
  ∀ (state : State) (others : List Point), state.arena.Owns (needs ++ others) →
    (parser state).2.arena.Owns
      ((parser state).1.toList.flatMap holds ++ others)

/-- What a result without points refers to. -/
@[simp]
def nothing (_ : Result) : List Point :=
  []

@[simp]
def expressionPoints (id : ExprId) : List Point :=
  [.expr id]

@[simp]
def statementPoints (id : StmtId) : List Point :=
  [.stmt id]

/-- The expressions that a node which is not stored yet refers to. -/
@[simp]
def nodePoints (node : Expr) : List Point :=
  node.children.map Point.expr

@[simp]
theorem flatMap_nothing (results : List Result) :
    results.flatMap nothing = [] := by
  simp

@[simp]
theorem flatMap_expressionPoints (ids : List ExprId) :
    ids.flatMap expressionPoints = ids.map Point.expr :=
  List.map_eq_flatMap.symm

@[simp]
theorem flatMap_statementPoints (ids : List StmtId) :
    ids.flatMap statementPoints = ids.map Point.stmt :=
  List.map_eq_flatMap.symm

def Member.points : Member → List Point
  | .field decl => decl.points
  | .method decl => decl.points
  | .static => []

/-! ## Composition -/

attribute [local simp] List.count_cons

@[simp]
theorem within_iff {points owned : List Point} :
    Within points owned ↔ ∀ point, points.count point ≤ owned.count point :=
  Iff.rfl

namespace Stores

variable {needs : List Point}

/-- What a parser does not need it may be given. -/
theorem uses {used : List Point} {parser : Parse Result}
    {holds : Result → List Point} (stores : Stores used parser holds)
    (known : Within used needs) : Stores needs parser holds :=
  fun state others owns =>
    stores state others (owns.within (known.append (.refl others)))

theorem pure {result : Result} {holds : Result → List Point}
    (known : Within (holds result) needs) :
    Stores needs (Pure.pure result) holds := by
  intro state others owns
  have taken : Within ((some result).toList.flatMap holds) needs := by
    simpa using known
  exact owns.within (taken.append (.refl others))

theorem skip {result : Result} : Stores needs (Pure.pure result) nothing :=
  pure (by simp)

theorem empty {holds : Result → List Point} :
    Stores needs (Pure.pure []) fun results => results.flatMap holds :=
  pure (by simp)

/-- The first parser uses up a part of what is needed and leaves the rest. -/
theorem bindUsing {used kept : List Point} {parser : Parse Result}
    {next : Result → Parse Next} {holds : Result → List Point}
    {after : Next → List Point} (first : Stores used parser holds)
    (known : Within (used ++ kept) needs)
    (second : ∀ result, Stores (holds result ++ kept) (next result) after) :
    Stores needs (parser >>= next) after := by
  intro state others owns
  have split : Within (used ++ (kept ++ others)) (needs ++ others) := by
    rw [← List.append_assoc]
    exact known.append (.refl others)
  have owned := first state (kept ++ others) (owns.within split)
  rcases parsed : parser state with ⟨result, middle⟩
  rw [parsed] at owned
  cases result with
  | none =>
      have unfolded : (parser >>= next) state = (none, middle) := by
        simp only [Bind.bind, parsed]
      rw [unfolded]
      exact owned.within (by simp +arith)
  | some result =>
      have unfolded : (parser >>= next) state = next result middle := by
        simp only [Bind.bind, parsed]
      rw [unfolded]
      have held : middle.arena.Owns ((holds result ++ kept) ++ others) := by
        simpa using owned
      exact second result middle others held

/-- The first parser uses up nothing of what is needed. -/
theorem bind {parser : Parse Result} {next : Result → Parse Next}
    {holds : Result → List Point} {after : Next → List Point}
    (first : Stores [] parser holds)
    (second : ∀ result, Stores (holds result ++ needs) (next result) after) :
    Stores needs (parser >>= next) after :=
  bindUsing first (.refl needs) second

/-- The first parser uses up all that is needed. -/
theorem bindAll {parser : Parse Result} {next : Result → Parse Next}
    {holds : Result → List Point} {after : Next → List Point}
    (first : Stores needs parser holds)
    (second : ∀ result, Stores (holds result) (next result) after) :
    Stores needs (parser >>= next) after := by
  have splits : Within (needs ++ []) needs := by simp
  refine bindUsing first splits fun result => ?_
  rw [List.append_nil]
  exact second result

/-- A parser that never touches the arena. -/
theorem quiet {parser : Parse Result}
    (same : ∀ state, (parser state).2.arena = state.arena) :
    Stores needs parser nothing := by
  intro state others owns
  rw [same state]
  exact owns.within (by simp)

theorem inspect {view : State → Result} :
    Stores needs (Parse.inspect view) nothing :=
  quiet fun _ => rfl

theorem fail {fault : TokenKind → SyntaxFault} {holds : Result → List Point} :
    Stores needs (failHere fault) holds :=
  fun _ _ owns => owns.within (by simp [failHere])

theorem failAt {fault : SyntaxFault} {span : Span}
    {holds : Result → List Point} :
    Stores needs (Grammar.failAt fault span) holds :=
  fun _ _ owns => owns.within (by simp [Grammar.failAt])

theorem attempt {parser : Parse Result} {holds : Result → List Point}
    (stores : Stores needs parser holds) :
    Stores needs (Parse.attempt parser) fun result =>
      result.toList.flatMap holds := by
  intro state others owns
  have owned := stores state others owns
  simpa [Parse.attempt] using owned

theorem discard {parser : Parse Result} {holds : Result → List Point}
    (stores : Stores [] parser holds) :
    Stores needs (Functor.discard parser) nothing :=
  bind stores fun _ => skip

theorem addExpr {node : Expr} {span : Span}
    (known : Within (nodePoints node) needs) :
    Stores needs (Grammar.addExpr node span) expressionPoints := by
  intro state others owns
  exact owns.addExpr span (known.append (.refl others))

theorem addStmt {node : Stmt} {span : Span}
    (known : Within node.points needs) :
    Stores needs (Grammar.addStmt node span) statementPoints := by
  intro state others owns
  exact owns.addStmt span (known.append (.refl others))

theorem ite {condition : Prop} [Decidable condition]
    {whenTrue whenFalse : Parse Result} {holds : Result → List Point}
    (left : Stores needs whenTrue holds)
    (right : Stores needs whenFalse holds) :
    Stores needs (if condition then whenTrue else whenFalse) holds := by
  split
  · exact left
  · exact right

end Stores

/-! ## Tokens and lists -/

section

variable {needs : List Point}

theorem stores_advance : Stores needs advance nothing := by
  refine .quiet fun state => ?_
  simp only [advance, State.advance]
  split <;> rfl

theorem stores_report {fault : SyntaxFault} {span : Span} :
    Stores needs (report fault span) nothing :=
  .quiet fun _ => rfl

theorem stores_skipBy {rule : Span → List Token → Span × List Token} :
    Stores needs (skipBy rule) nothing :=
  .quiet fun _ => rfl

theorem stores_eatSymbol {mark : Symbol} :
    Stores needs (eatSymbol mark) nothing :=
  .bind .inspect fun _ =>
    .ite (.bind stores_advance fun _ => .skip)
      (.skip)

theorem stores_eatKeyword {word : Keyword} :
    Stores needs (eatKeyword word) nothing :=
  .bind .inspect fun _ =>
    .ite (.bind stores_advance fun _ => .skip)
      (.skip)

theorem stores_eatIdentifier {name : String} :
    Stores needs (eatIdentifier name) nothing :=
  .bind .inspect fun _ =>
    .ite (.bind stores_advance fun _ => .skip)
      (.skip)

theorem stores_expectSymbol {mark : Symbol} :
    Stores needs (expectSymbol mark) nothing :=
  .bind .inspect fun _ => .ite stores_advance .fail

theorem stores_expectKeyword {word : Keyword} :
    Stores needs (expectKeyword word) nothing :=
  .bind .inspect fun _ => .ite stores_advance .fail

theorem stores_takeName {text : String} :
    Stores needs (takeName text) nothing :=
  .bind .inspect fun _ => .bind stores_advance fun _ =>
    .skip

theorem stores_expectIdentifier : Stores needs expectIdentifier nothing := by
  refine .bind .inspect fun kind => ?_
  split
  · exact stores_takeName
  · exact .ite stores_takeName .fail
  · exact .fail

theorem stores_expectPropertyName :
    Stores needs expectPropertyName nothing := by
  refine .bind .inspect fun kind => ?_
  split
  · exact stores_takeName
  · exact stores_takeName
  · exact .fail

theorem stores_expectString : Stores needs expectString nothing := by
  refine .bind .inspect fun kind => ?_
  split
  · exact .bind stores_advance fun _ => .skip
  · exact .fail

theorem stores_expectClosingAngle :
    Stores needs expectClosingAngle nothing := by
  refine .bind .inspect fun kind => ?_
  split
  · split
    · refine .quiet fun state => ?_
      simp only [splitAngle]
      split <;> rfl
    · exact stores_expectSymbol
  · exact stores_expectSymbol

theorem stores_spanFrom {start : Span} :
    Stores needs (spanFrom start) nothing :=
  .bind .inspect fun _ => .skip

variable {item : Parse Result} {holds : Result → List Point}

theorem stores_itemsUntil {closing : Symbol}
    (stores : ∀ needs, Stores needs item holds) :
    ∀ (bound : Nat) (needs : List Point),
      Stores needs (itemsUntil closing item bound) fun results =>
        results.flatMap holds
  | 0, _ => .fail
  | bound + 1, needs => by
      refine .bind .inspect fun isClosed => .bind .inspect fun isEnd =>
        .ite .empty ?_
      refine .bind (stores _) fun first => .bind stores_eatSymbol fun _ =>
        .ite ?_ (.pure (by simp +arith))
      exact .bind (stores_itemsUntil stores bound _) fun rest =>
        .pure (by simp +arith)

theorem stores_listUntil {closing : Symbol}
    (stores : ∀ needs, Stores needs item holds) :
    Stores needs (listUntil closing item) fun results =>
      results.flatMap holds :=
  .bind .inspect fun _ => .bind (stores_itemsUntil stores _ _) fun _ =>
    .bind stores_expectSymbol fun _ => .pure (by simp +arith)

theorem stores_separatedItems (stores : ∀ needs, Stores needs item holds) :
    ∀ (bound : Nat) (needs : List Point),
      Stores needs (separatedItems item bound) fun results =>
        results.flatMap holds
  | 0, _ => .fail
  | bound + 1, needs => by
      refine .bind (stores _) fun first => .bind stores_eatSymbol fun _ =>
        .ite ?_ (.pure (by simp +arith))
      exact .bind (stores_separatedItems stores bound _) fun rest =>
        .pure (by simp +arith)

theorem stores_separated (stores : ∀ needs, Stores needs item holds) :
    Stores needs (separated item) fun results =>
      results.flatMap holds :=
  .bind .inspect fun _ => stores_separatedItems stores _ _

end

/-! ## Types -/

section

variable {needs : List Point}

theorem stores_typeSegment : Stores needs typeSegment nothing :=
  .bind .inspect fun _ => .ite stores_takeName stores_expectIdentifier

theorem stores_moreSegments :
    ∀ (bound : Nat) (needs : List Point),
      Stores needs (moreSegments bound) nothing
  | 0, _ => .fail
  | bound + 1, _ =>
      .bind stores_eatSymbol fun _ =>
        .ite
          (.bind stores_typeSegment fun _ =>
            .bind (stores_moreSegments bound _) fun _ =>
              .skip)
          (.skip)

theorem stores_primaryType {nested : Parse TypeExpr}
    (stores : ∀ needs, Stores needs nested nothing) :
    Stores needs (primaryType nested) nothing := by
  refine .bind .inspect fun start => .bind stores_eatSymbol fun _ => .ite ?_ ?_
  · exact .bind (stores _) fun _ => .bind stores_expectSymbol fun _ =>
      .bind stores_spanFrom fun _ => .skip
  · refine .bind stores_typeSegment fun _ => .bind .inspect fun _ =>
      .bind (stores_moreSegments _ _) fun _ => .bind stores_eatSymbol fun _ =>
        .ite ?_ ?_
    · exact .bind (stores_separated stores) fun _ =>
        .bind stores_expectClosingAngle fun _ => .bind .skip fun _ =>
          .bind stores_spanFrom fun _ => .skip
    · exact .bind .skip fun _ => .bind stores_spanFrom fun _ => .skip

theorem stores_arraySuffixes {start : Span} :
    ∀ (bound : Nat) (type : TypeExpr) (needs : List Point),
      Stores needs (arraySuffixes start bound type) nothing
  | 0, _, _ => .skip
  | bound + 1, _, _ =>
      .bind .inspect fun _ => .bind .inspect fun _ =>
        .ite
          (.bind stores_advance fun _ => .bind stores_advance fun _ =>
            .bind stores_spanFrom fun _ => stores_arraySuffixes bound _ _)
          (.skip)

theorem stores_typeStep {nested : Parse TypeExpr}
    (stores : ∀ needs, Stores needs nested nothing) :
    Stores needs (typeStep nested) nothing := by
  refine .bind .inspect fun start => .bind (stores_primaryType stores) fun _ =>
    .bind .inspect fun _ => .bind (stores_arraySuffixes _ _ _) fun _ =>
      .bind .inspect fun _ => .bind .inspect fun _ => .ite ?_ ?_
  · exact .bind stores_advance fun _ => .bind stores_advance fun _ =>
      .bind stores_spanFrom fun _ => .skip
  · exact .skip

theorem stores_typeAt :
    ∀ (bound : Nat) (needs : List Point), Stores needs (typeAt bound) nothing
  | 0, _ => .fail
  | bound + 1, _ => stores_typeStep (stores_typeAt bound)

theorem stores_typeExpr : Stores needs typeExpr nothing :=
  .bind .inspect fun _ => stores_typeAt _ _

end

/-! ## Expressions -/

section

variable {needs : List Point} {sub : ExprGoal → Parse ExprId}

theorem stores_noArguments :
    Stores needs (pure []) fun values => values.flatMap expressionPoints :=
  .empty

theorem stores_arguments
    (stores : ∀ goal needs, Stores needs (sub goal) expressionPoints) :
    Stores needs (arguments sub) fun values =>
      values.flatMap expressionPoints :=
  stores_listUntil (stores .expression)

theorem stores_objectEntry
    (stores : ∀ goal needs, Stores needs (sub goal) expressionPoints)
    (needs : List Point) :
    Stores needs (objectEntry sub) fun entry => expressionPoints entry.2 := by
  have value (key : Name) (needs : List Point) :
      Stores needs (do
        if ← eatSymbol .colon then
          let value ← sub .expression
          return (key, value)
        else
          let value ← addExpr (.identifier key.text) key.span
          return (key, value)) fun entry => expressionPoints entry.2 := by
    refine .bind stores_eatSymbol fun _ => .ite ?_ ?_
    · exact .bind (stores .expression _) fun _ =>
        .pure (by simp +arith)
    · exact .bind (.addExpr (by simp +arith [Expr.children])) fun _ =>
        .pure (by simp +arith)
  refine .bind .inspect fun kind => ?_
  split
  · exact .bind stores_takeName fun key => value key _
  · exact .bind stores_expectPropertyName fun key => value key _

theorem stores_primaryNode
    (stores : ∀ goal needs, Stores needs (sub goal) expressionPoints) :
    Stores needs (primaryNode sub) nodePoints := by
  have leaf {node : Expr} (needs : List Point) (none : node.children = []) :
      Stores needs (do advance; return node) nodePoints :=
    .bind stores_advance fun _ => .pure (by simp +arith [none])
  refine .bind .inspect fun kind => ?_
  split
  case h_9 =>
    refine .bind stores_advance fun _ => .bind stores_typeExpr fun _ =>
      .bind stores_eatSymbol fun _ => .ite ?_ ?_
    · exact .bind (stores_arguments stores) fun values =>
        .pure (by simp +arith [Expr.children])
    · exact .bind stores_noArguments fun _ =>
        .pure (by simp +arith [Expr.children])
  case h_10 =>
    exact .ite (leaf _ rfl) .fail
  case h_11 =>
    exact .bind stores_advance fun _ => .bind (stores .expression _) fun _ =>
      .bind stores_expectSymbol fun _ => .pure (by simp +arith [Expr.children])
  case h_12 =>
    exact .bind stores_advance fun _ =>
      .bind (stores_listUntil (stores .expression)) fun _ =>
        .pure (by simp +arith [Expr.children])
  case h_13 =>
    exact .bind stores_advance fun _ =>
      .bind (stores_listUntil (stores_objectEntry stores)) fun _ =>
        .pure (by simp +arith [Expr.children, ← List.map_eq_flatMap,
          Function.comp_def])
  case h_14 => exact .fail
  all_goals exact leaf _ rfl

theorem stores_spanOf {id : ExprId} : Stores needs (spanOf id) nothing :=
  .inspect

theorem stores_exprAt (id : ExprId) : Stores needs (exprAt id) nothing :=
  .inspect

theorem stores_primary
    (stores : ∀ goal needs, Stores needs (sub goal) expressionPoints) :
    Stores needs (primary sub) expressionPoints :=
  .bind .inspect fun _ => .bind (stores_primaryNode stores) fun _ =>
    .bind stores_spanFrom fun _ => .addExpr (by simp +arith)

theorem stores_accesses
    (stores : ∀ goal needs, Stores needs (sub goal) expressionPoints) :
    ∀ (bound : Nat) (id : ExprId),
      Stores [.expr id] (accesses sub bound id) expressionPoints := by
  intro bound
  induction bound with
  | zero => exact fun _ => .pure (by simp)
  | succ bound inductionHypothesis =>
      intro id
      refine .bind .inspect fun kind => ?_
      split
      case h_1 =>
        refine .bind stores_advance fun _ =>
          .bind (stores_arguments stores) fun values =>
            .bind stores_spanOf fun _ => .bind stores_spanFrom fun span =>
              .bindAll (.addExpr ?_) fun whole => inductionHypothesis whole
        simp +arith [Expr.children]
      case h_2 =>
        refine .bind .inspect fun _ => .ite ?_ (.pure (by simp))
        refine .bind stores_advance fun _ =>
          .bind (stores_separated fun _ => stores_typeExpr) fun types =>
            .bind stores_expectClosingAngle fun _ =>
              .bind stores_expectSymbol fun _ =>
                .bind (stores_arguments stores) fun values =>
                  .bind stores_spanOf fun _ => .bind stores_spanFrom fun span =>
                    .bindAll (.addExpr ?_) fun whole =>
                      inductionHypothesis whole
        simp +arith [Expr.children]
      case h_3 =>
        refine .bind stores_advance fun _ =>
          .bind stores_expectPropertyName fun property =>
            .bind stores_spanOf fun _ => .bindAll (.addExpr ?_) fun whole =>
              inductionHypothesis whole
        simp +arith [Expr.children]
      case h_4 =>
        refine .bind stores_advance fun _ =>
          .bind (stores .expression _) fun index =>
            .bind stores_expectSymbol fun _ => .bind stores_spanOf fun _ =>
              .bind stores_spanFrom fun span =>
                .bindAll (.addExpr ?_) fun whole => inductionHypothesis whole
        simp +arith [Expr.children]
      case h_5 => exact .pure (by simp)

theorem stores_unary
    (stores : ∀ goal needs, Stores needs (sub goal) expressionPoints) :
    Stores needs (unary sub) expressionPoints := by
  refine .bind .inspect fun kind => ?_
  split
  · exact .bind .inspect fun _ => .bind stores_advance fun _ =>
      .bind (stores .unary _) fun operand => .bind stores_spanOf fun _ =>
        .addExpr (by simp +arith [Expr.children])
  · exact .bind (stores_primary stores) fun id => .bind .inspect fun _ =>
      (stores_accesses stores _ id).uses (by simp +arith)

theorem stores_binaryRest {least : Nat}
    (stores : ∀ goal needs, Stores needs (sub goal) expressionPoints) :
    ∀ (bound : Nat) (left : ExprId),
      Stores [.expr left] (binaryRest sub least bound left)
        expressionPoints := by
  intro bound
  induction bound with
  | zero => exact fun _ => .pure (by simp)
  | succ bound inductionHypothesis =>
      intro left
      refine .bind .inspect fun isCast => .ite ?_ ?_
      · refine .bind stores_advance fun _ => .bind stores_typeExpr fun type =>
          .bind stores_spanOf fun _ => .bindAll (.addExpr ?_) fun whole =>
            inductionHypothesis whole
        simp +arith [Expr.children]
      · refine .bind .inspect fun kind => ?_
        split
        · exact .pure (by simp)
        · refine .ite (.pure (by simp)) ?_
          refine .bind stores_advance fun _ =>
            .bind (stores (.binary _) _) fun right =>
              .bind stores_spanOf fun _ => .bind stores_spanOf fun _ =>
                .bindAll (.addExpr ?_) fun whole =>
                  inductionHypothesis whole
          simp +arith [Expr.children]

theorem stores_binary {least : Nat}
    (stores : ∀ goal needs, Stores needs (sub goal) expressionPoints) :
    Stores needs (binary sub least) expressionPoints :=
  .bind (stores_unary stores) fun left => .bind .inspect fun _ =>
    (stores_binaryRest stores _ left).uses (by simp +arith)

theorem stores_conditional
    (stores : ∀ goal needs, Stores needs (sub goal) expressionPoints) :
    Stores needs (conditional sub) expressionPoints := by
  refine .bind (stores_binary stores) fun condition =>
    .bind stores_eatSymbol fun _ => .ite ?_ (.pure (by simp))
  exact .bind (stores .assignment _) fun whenTrue =>
    .bind stores_expectSymbol fun _ => .bind (stores .assignment _) fun _ =>
      .bind stores_spanOf fun _ => .bind stores_spanOf fun _ =>
        .addExpr (by simp +arith [Expr.children])

theorem stores_assignment
    (stores : ∀ goal needs, Stores needs (sub goal) expressionPoints) :
    Stores needs (assignment sub) expressionPoints := by
  refine .bind (stores_conditional stores) fun target =>
    .bind .inspect fun kind => ?_
  split
  · exact .pure (by simp)
  · refine .bind (stores_exprAt target) fun located => .ite ?_ .failAt
    exact .bind stores_advance fun _ =>
      .bind (stores .assignment _) fun value => .bind stores_spanOf fun _ =>
        .addExpr (by simp +arith [Expr.children])

theorem stores_nested {parser : Parse ExprId}
    (stores : Stores needs parser expressionPoints) :
    Stores needs (nested parser) expressionPoints := by
  intro state closed stored
  unfold nested
  split
  · exact Stores.fail state closed stored
  · exact stores { state with depth := state.depth + 1 } closed stored

theorem stores_goalStep
    (stores : ∀ goal needs, Stores needs (sub goal) expressionPoints)
    (goal : ExprGoal) (needs : List Point) :
    Stores needs (goalStep sub goal) expressionPoints := by
  cases goal with
  | expression => exact stores_nested (stores_assignment stores)
  | assignment => exact stores_assignment stores
  | binary least => exact stores_binary stores
  | unary => exact stores_unary stores

theorem stores_goalAt :
    ∀ (bound : Nat) (goal : ExprGoal) (needs : List Point),
      Stores needs (goalAt bound goal) expressionPoints
  | 0, _, _ => .fail
  | bound + 1, goal, needs => stores_goalStep (stores_goalAt bound) goal needs

theorem stores_expression : Stores needs expression expressionPoints :=
  .bind .inspect fun _ => stores_goalAt _ _ _

theorem stores_decoratorArguments :
    Stores needs decoratorArguments fun values =>
      values.flatMap expressionPoints :=
  stores_listUntil fun _ => stores_expression

end

/-! ## Statements -/

section

variable {needs : List Point} {statement : Parse StmtId}

theorem stores_recoverStatement {start : Span} :
    Stores needs (recoverStatement start) nothing :=
  .bind stores_skipBy fun _ => .bind .inspect fun _ => .bind .inspect fun _ =>
    .ite stores_advance .skip

theorem stores_statementsUntilBrace
    (stores : ∀ needs, Stores needs statement statementPoints) :
    ∀ (bound : Nat) (needs : List Point),
      Stores needs (statementsUntilBrace statement bound) fun results =>
        results.flatMap statementPoints
  | 0, _ => .empty
  | bound + 1, needs => by
      refine .bind .inspect fun _ => .bind .inspect fun _ =>
        .bind .inspect fun _ => .ite .empty (.bind .inspect fun start => ?_)
      refine .bind (.attempt (stores _)) fun first => ?_
      cases first with
      | some first =>
          exact .bind (stores_statementsUntilBrace stores bound _) fun rest =>
            .pure (by simp +arith)
      | none =>
          exact .bind stores_recoverStatement fun _ =>
            stores_statementsUntilBrace stores bound _

theorem stores_blockOf
    (stores : ∀ needs, Stores needs statement statementPoints) :
    Stores needs (blockOf statement) Block.points :=
  .bind .inspect fun _ => .bind stores_expectSymbol fun _ =>
    .bind .inspect fun _ => .bind (stores_statementsUntilBrace stores _ _)
      fun statements => .bind stores_expectSymbol fun _ =>
        .bind stores_spanFrom fun _ =>
          .pure (by simp +arith [Block.points])

theorem stores_optionalType : Stores needs optionalType nothing :=
  .bind stores_eatSymbol fun _ =>
    .ite (.bind stores_typeExpr fun _ => .skip) .skip

theorem stores_optionalInitializer :
    Stores needs optionalInitializer optionalPoints :=
  .bind stores_eatSymbol fun _ =>
    .ite (.bind stores_expression fun _ => .pure (by simp +arith [optionalPoints]))
      (.pure (by simp +arith [optionalPoints]))

theorem stores_optionalSemicolon : Stores needs optionalSemicolon nothing :=
  .discard stores_eatSymbol

theorem stores_bindingNode {kind : BindingKind} :
    Stores needs (bindingNode kind) Stmt.points :=
  .bind stores_expectIdentifier fun _ => .bind stores_optionalType fun _ =>
    .bind stores_optionalInitializer fun value =>
      .bind stores_optionalSemicolon fun _ =>
        .pure (by simp +arith [Stmt.points])

theorem stores_branchNode
    (stores : ∀ needs, Stores needs statement statementPoints) :
    Stores needs (branchNode statement) Stmt.points := by
  refine .bind stores_expectSymbol fun _ => .bind stores_expression fun _ =>
    .bind stores_expectSymbol fun _ => .bind (stores _) fun whenTrue =>
      .bind stores_eatKeyword fun _ => .ite ?_ (.pure (by simp +arith [Stmt.points]))
  exact .bind (stores _) fun whenFalse => .pure (by simp +arith [Stmt.points])

theorem stores_loopNode
    (stores : ∀ needs, Stores needs statement statementPoints) :
    Stores needs (loopNode statement) Stmt.points :=
  .bind stores_expectSymbol fun _ => .bind stores_expression fun _ =>
    .bind stores_expectSymbol fun _ => .bind (stores _) fun body =>
      .pure (by simp +arith [Stmt.points])

theorem stores_returnNode : Stores needs returnNode Stmt.points := by
  refine .bind .inspect fun _ => .bind .inspect fun _ =>
    .bind .inspect fun _ => .ite ?_ ?_
  · exact .bind stores_optionalSemicolon fun _ =>
      .pure (by simp +arith [Stmt.points, optionalPoints])
  · exact .bind stores_expression fun value =>
      .bind stores_optionalSemicolon fun _ =>
        .pure (by simp +arith [Stmt.points, optionalPoints])

theorem stores_statementNode
    (stores : ∀ needs, Stores needs statement statementPoints) :
    Stores needs (statementNode statement) Stmt.points := by
  refine .bind .inspect fun kind => ?_
  split
  · exact .bind (stores_blockOf stores) fun inner =>
      .pure (by simp +arith [Stmt.points])
  · exact .bind stores_advance fun _ => .pure (by simp +arith [Stmt.points])
  · exact .bind stores_advance fun _ => stores_bindingNode
  · exact .bind stores_advance fun _ => stores_bindingNode
  · exact .bind stores_advance fun _ => stores_bindingNode
  · exact .bind stores_advance fun _ => stores_branchNode stores
  · exact .bind stores_advance fun _ => stores_loopNode stores
  · exact .bind stores_advance fun _ => stores_returnNode
  · exact .bind stores_advance fun _ => .bind stores_expression fun value =>
      .bind stores_optionalSemicolon fun _ => .pure (by simp +arith [Stmt.points])
  · exact .bind stores_expression fun value =>
      .bind stores_optionalSemicolon fun _ => .pure (by simp +arith [Stmt.points])

theorem stores_statementAt :
    ∀ (bound : Nat) (needs : List Point),
      Stores needs (statementAt bound) statementPoints
  | 0, _ => .fail
  | bound + 1, _ =>
      .bind .inspect fun _ =>
        .bind (stores_statementNode (stores_statementAt bound)) fun node =>
          .bind stores_spanFrom fun _ => .addStmt (by simp +arith)

theorem stores_block : Stores needs block Block.points :=
  .bind .inspect fun _ => stores_blockOf (stores_statementAt _)

end

/-! ## Declarations -/

section

variable {needs : List Point}

theorem stores_decoratorFrom {start : Span} :
    Stores needs (decoratorFrom start) Decorator.points := by
  refine .bind stores_expectPropertyName fun _ =>
    .bind stores_eatSymbol fun _ => .ite ?_ ?_
  · exact .bind stores_decoratorArguments fun values =>
      .bind stores_spanFrom fun _ =>
        .pure (by simp +arith [Decorator.points])
  · exact .bind stores_noArguments fun values =>
      .bind stores_spanFrom fun _ =>
        .pure (by simp +arith [Decorator.points])

theorem stores_decoratorsAt :
    ∀ (bound : Nat) (needs : List Point),
      Stores needs (decoratorsAt bound) fun results =>
        results.flatMap Decorator.points
  | 0, _ => .fail
  | bound + 1, needs => by
      refine .bind .inspect fun start => .bind stores_eatSymbol fun _ =>
        .ite ?_ .empty
      exact .bind stores_decoratorFrom fun first =>
        .bind (stores_decoratorsAt bound _) fun rest =>
          .pure (by simp +arith)

theorem stores_decorators :
    Stores needs decorators fun results =>
      results.flatMap Decorator.points :=
  .bind .inspect fun _ => stores_decoratorsAt _ _

theorem stores_externalName {decorators : List Decorator} :
    Stores needs (externalName decorators) nothing := by
  unfold externalName
  split
  · exact .skip
  · refine .bind (@Stores.inspect _ _ State.arena) fun arena => ?_
    split
    · exact .bind stores_report fun _ => .skip
    · exact .skip
    · exact .skip
    · exact .bind stores_report fun _ => .skip

theorem stores_parameterModifier : Stores needs parameterModifier nothing := by
  refine .bind .inspect fun next => .bind .inspect fun kind => ?_
  split <;> exact .skip

theorem stores_skipParameterModifiers :
    ∀ (bound : Nat) (needs : List Point),
      Stores needs (skipParameterModifiers bound) nothing
  | 0, _ => .skip
  | bound + 1, _ =>
      .bind stores_parameterModifier fun _ =>
        .ite (.bind stores_advance fun _ =>
          stores_skipParameterModifiers bound _) .skip

theorem stores_parameter : Stores needs parameter Param.points := by
  refine .bind .inspect fun start => .bind .inspect fun _ =>
    .bind (stores_skipParameterModifiers _ _) fun _ =>
      .bind stores_expectIdentifier fun name => .bind .inspect fun _ =>
        .ite .fail (.bind stores_eatSymbol fun _ => .ite ?_ .failAt)
  exact .bind stores_typeExpr fun type =>
    .bind stores_optionalInitializer fun initializer =>
      .bind stores_spanFrom fun _ =>
        .pure (by simp +arith [Param.points])

theorem stores_parameters :
    Stores needs parameters fun results => results.flatMap Param.points :=
  .bind stores_expectSymbol fun _ => stores_listUntil fun _ => stores_parameter

theorem stores_typeParameter : Stores needs typeParameter nothing :=
  .bind (.discard stores_expectIdentifier) fun _ =>
    .bind stores_eatIdentifier fun _ => .ite (.discard stores_typeExpr) .skip

theorem stores_skipTypeParameters : Stores needs skipTypeParameters nothing :=
  .bind stores_eatSymbol fun _ =>
    .ite
      (.bind (.discard (stores_separated fun _ => stores_typeParameter))
        fun _ => stores_expectClosingAngle)
      .skip

/-- What an optional body refers to. -/
@[simp]
def bodyPoints (body : Option Block) : List Point :=
  body.toList.flatMap Block.points

theorem stores_optionalBody : Stores needs optionalBody bodyPoints := by
  refine .bind .inspect fun _ => .ite ?_ ?_
  · exact .bind stores_block fun body => .pure (by simp +arith)
  · exact .bind stores_optionalSemicolon fun _ => .pure (by simp)

theorem stores_functionDecl {decorators : List Decorator}
    {isExported isDeclared : Bool} {start : Span} :
    Stores (decorators.flatMap Decorator.points)
      (functionDecl decorators isExported isDeclared start)
      FunctionDecl.points := by
  refine .bind stores_expectKeyword fun _ =>
    .bind stores_expectIdentifier fun name =>
      .bind stores_skipTypeParameters fun _ =>
        .bind stores_parameters fun params =>
          .bind stores_optionalType fun returnType =>
            .bind stores_optionalBody fun body => ?_
  have rest : Stores
      (decorators.flatMap Decorator.points ++
        (params.flatMap Param.points ++ bodyPoints body)) (do
        let external ← externalName decorators
        return ⟨name, decorators, external, isExported, isDeclared, params,
          returnType, body, ← spanFrom start⟩) FunctionDecl.points :=
    .bind stores_externalName fun _ => .bind stores_spanFrom fun _ =>
      .pure (by simp +arith [FunctionDecl.points, FunctionDecl.entries])
  exact .ite
    (.bind stores_report fun _ => rest.uses (by simp +arith))
    (rest.uses (by simp +arith))

theorem stores_memberModifiers :
    ∀ (bound : Nat) (needs : List Point),
      Stores needs (memberModifiers bound) nothing
  | 0, _ => .skip
  | bound + 1, _ =>
      .bind .inspect fun _ => .bind .inspect fun _ =>
        .ite (.bind stores_advance fun _ =>
          .bind (stores_memberModifiers bound _) fun _ => .skip) .skip

theorem stores_methodFrom {start : Span} {decorators : List Decorator}
    {name : Name} :
    Stores (decorators.flatMap Decorator.points)
      (methodFrom start decorators name) FunctionDecl.points := by
  refine .bind stores_skipTypeParameters fun _ =>
    .bind stores_parameters fun params =>
      .bind stores_optionalType fun returnType =>
        .bind stores_optionalBody fun body =>
          .bind stores_spanFrom fun _ => .pure ?_
  simp +arith [FunctionDecl.points, FunctionDecl.entries]

theorem stores_fieldFrom {start : Span} {name : Name} :
    Stores needs (fieldFrom start name) FieldDecl.points := by
  have rest (needs : List Point) : Stores needs (do
      if ← eatSymbol .colon then
        let type ← typeExpr
        let initializer ← optionalInitializer
        optionalSemicolon
        return ⟨name, type, initializer, ← spanFrom start⟩
      else failAt (.untypedField name.text) name.span) FieldDecl.points := by
    refine .bind stores_eatSymbol fun _ => .ite ?_ .failAt
    exact .bind stores_typeExpr fun type =>
      .bind stores_optionalInitializer fun initializer =>
        .bind stores_optionalSemicolon fun _ => .bind stores_spanFrom fun _ =>
          .pure (by simp +arith [FieldDecl.points])
  refine .bind stores_eatSymbol fun _ => .ite (rest _) ?_
  exact .bind (.discard stores_eatSymbol) fun _ => rest _

theorem stores_classMember : Stores needs classMember Member.points := by
  refine .bind .inspect fun start => .bind stores_decorators fun decorators =>
    .bind .inspect fun _ => .bind (stores_memberModifiers _ _) fun isStatic =>
      .bind stores_expectPropertyName fun name => .bind .inspect fun _ =>
        .bind .inspect fun _ => .ite ?_ ?_
  · exact .bindAll (stores_methodFrom.uses (by simp +arith)) fun decl =>
      .pure (by simp [Member.points])
  · refine .bind stores_fieldFrom fun decl => ?_
    exact .pure (by split <;> simp +arith [Member.points])

theorem stores_membersUntilBrace :
    ∀ (bound : Nat) (needs : List Point),
      Stores needs (membersUntilBrace bound) fun results =>
        results.flatMap Member.points
  | 0, _ => .empty
  | bound + 1, needs => by
      refine .bind .inspect fun _ => .bind .inspect fun _ => .ite .empty ?_
      refine .bind stores_eatSymbol fun _ =>
        .ite (stores_membersUntilBrace bound _) ?_
      refine .bind .inspect fun _ => .ite .empty ?_
      refine .bind (.attempt stores_classMember) fun first => ?_
      cases first with
      | some first =>
          exact .bind (stores_membersUntilBrace bound _) fun rest =>
            .pure (by simp +arith)
      | none =>
          exact .bind stores_skipBy fun _ => stores_membersUntilBrace bound _

theorem stores_optionalBase : Stores needs optionalBase nothing :=
  .bind stores_eatIdentifier fun _ =>
    .ite (.bind stores_typeExpr fun _ => .skip) .skip

/-- The fields and the methods among some members share no points. -/
theorem within_members (members : List Member) :
    Within ((members.filterMap Member.field?).flatMap FieldDecl.points ++
      (members.filterMap Member.method?).flatMap FunctionDecl.points)
      (members.flatMap Member.points) := by
  induction members with
  | nil => exact .refl []
  | cons first rest inductionHypothesis =>
      intro point
      have counted := inductionHypothesis point
      rw [List.count_append] at counted
      cases first <;>
        simp only [Member.field?, Member.method?, Member.points,
          List.filterMap_cons, List.flatMap_cons, List.count_append,
          List.count_nil] <;>
        omega

theorem stores_classDecl {decorators : List Decorator} {isExported : Bool}
    {start : Span} :
    Stores (decorators.flatMap Decorator.points)
      (classDecl decorators isExported start) ClassDecl.points := by
  have rest (name : Name) (base : Option TypeExpr) :
      Stores (decorators.flatMap Decorator.points) (do
        expectSymbol .openBrace
        let members ← membersUntilBrace (← stepBound)
        expectSymbol .closeBrace
        return ⟨name, decorators, isExported, base,
          members.filterMap Member.field?, members.filterMap Member.method?,
          ← spanFrom start⟩) ClassDecl.points := by
    refine .bind stores_expectSymbol fun _ => .bind .inspect fun _ =>
      .bind (stores_membersUntilBrace _ _) fun members =>
        .bind stores_expectSymbol fun _ => .bind stores_spanFrom fun _ =>
          .pure fun point => ?_
    have counted := within_members members point
    rw [List.count_append] at counted
    simp only [ClassDecl.points, nothing, List.nil_append, List.count_append]
    omega
  refine .bind stores_expectKeyword fun _ =>
    .bind stores_expectIdentifier fun name =>
      .bind stores_skipTypeParameters fun _ =>
        .bind stores_optionalBase fun base =>
          .bind stores_eatIdentifier fun _ => .ite ?_ (rest name base)
  exact .bind (.discard (stores_separated fun _ => stores_typeExpr)) fun _ =>
    rest name base

theorem stores_variableDecl {kind : BindingKind} {decorators : List Decorator}
    {isExported : Bool} {start : Span} :
    Stores (decorators.flatMap Decorator.points)
      (variableDecl kind decorators isExported start) VariableDecl.points := by
  refine .bind stores_advance fun _ => .bind stores_expectIdentifier fun name =>
    .bind stores_optionalType fun type =>
      .bind stores_optionalInitializer fun value =>
        .bind stores_optionalSemicolon fun _ => .bind stores_spanFrom fun _ =>
          .pure ?_
  simp +arith [VariableDecl.points]

theorem stores_optionalRename : Stores needs optionalRename nothing :=
  .bind stores_eatKeyword fun _ =>
    .ite (.bind stores_expectIdentifier fun _ => .skip) .skip

theorem stores_exportMember : Stores needs exportMember nothing :=
  .bind stores_expectIdentifier fun _ => .bind stores_optionalRename fun _ =>
    .skip

theorem stores_exportDecl {start : Span} :
    Stores needs (exportDecl start) nothing := by
  refine .bind stores_expectSymbol fun _ =>
    .bind (stores_listUntil fun _ => stores_exportMember) fun members =>
      .bind stores_eatKeyword fun _ => .ite ?_ ?_
  · exact .bind stores_expectString fun _ => .bind .skip fun _ =>
      .bind stores_optionalSemicolon fun _ => .bind stores_spanFrom fun _ =>
        .skip
  · exact .bind .skip fun _ => .bind stores_optionalSemicolon fun _ =>
      .bind stores_spanFrom fun _ => .skip

theorem stores_importMember : Stores needs importMember nothing :=
  .bind stores_expectIdentifier fun _ => .bind stores_optionalRename fun _ =>
    .skip

theorem stores_importNames : Stores needs importNames nothing := by
  refine .bind .inspect fun kind => ?_
  split
  · exact .skip
  · exact .bind stores_advance fun _ => .bind stores_expectKeyword fun _ =>
      .bind stores_expectIdentifier fun _ => .skip
  · exact .bind stores_expectSymbol fun _ =>
      .bind (stores_listUntil fun _ => stores_importMember) fun _ => .skip

theorem stores_importDecl {start : Span} :
    Stores needs (importDecl start) nothing := by
  refine .bind stores_expectKeyword fun _ =>
    .bind stores_importNames fun names => .bind .inspect fun _ => .ite ?_ ?_
  · exact .bind stores_expectKeyword fun _ => .bind stores_expectString fun _ =>
      .bind stores_optionalSemicolon fun _ => .bind stores_spanFrom fun _ =>
        .skip
  · exact .bind stores_expectString fun _ =>
      .bind stores_optionalSemicolon fun _ => .bind stores_spanFrom fun _ =>
        .skip

theorem stores_declarationItem {decorators : List Decorator}
    {isExported isDeclared : Bool} {start : Span} :
    Stores (decorators.flatMap Decorator.points)
      (declarationItem decorators isExported isDeclared start)
      Item.points := by
  refine .bind .inspect fun kind => ?_
  split
  · exact .bindAll stores_functionDecl fun decl =>
      .pure (by simp [Item.points])
  · exact .bindAll stores_classDecl fun decl =>
      .pure (by simp [Item.points])
  · exact .bindAll stores_variableDecl fun decl =>
      .pure (by simp [Item.points])
  · exact .bindAll stores_variableDecl fun decl =>
      .pure (by simp [Item.points])
  · exact .bindAll stores_variableDecl fun decl =>
      .pure (by simp [Item.points])
  · exact .ite .fail (.bind stores_importDecl fun _ =>
      .pure (by simp [Item.points]))
  · exact .ite .fail .fail
  · exact .ite .fail .fail
  · exact .fail

theorem stores_item : Stores needs item Item.points := by
  refine .bind .inspect fun start => .bind stores_decorators fun decorators =>
    .bind stores_eatKeyword fun isExported => .bind .inspect fun _ =>
      .ite ?_ ?_
  · exact .bind stores_exportDecl fun _ => .pure (by simp [Item.points])
  · exact .bind stores_eatKeyword fun _ =>
      stores_declarationItem.uses (by simp +arith)

theorem stores_itemsToEnd :
    ∀ (bound : Nat) (needs : List Point),
      Stores needs (itemsToEnd bound) fun results =>
        results.flatMap Item.points
  | 0, _ => .empty
  | bound + 1, needs => by
      refine .bind .inspect fun _ => .bind .inspect fun _ => .ite .empty ?_
      refine .bind stores_eatSymbol fun _ =>
        .ite (stores_itemsToEnd bound _) ?_
      refine .bind (.attempt stores_item) fun first => ?_
      cases first with
      | some first =>
          exact .bind (stores_itemsToEnd bound _) fun rest =>
            .pure (by simp +arith)
      | none =>
          exact .bind stores_skipBy fun _ => stores_itemsToEnd bound _

theorem stores_items :
    Stores needs items fun result => result.1.flatMap Item.points :=
  .bind .inspect fun _ => .bind .inspect fun _ =>
    .bind (stores_itemsToEnd _ _) fun found => .bind stores_spanFrom fun _ =>
      .pure (by simp +arith)

end

/-- Whatever the tokens are, a program that they make up is well formed. -/
theorem wellFormed_of_parse {source : SourceText} {kind : SourceKind}
    {tokens : List Token} {program : Program}
    (parsed : parse source kind tokens = .ok program) :
    program.WellFormed := by
  have stores : Stores [] items fun result => result.1.flatMap Item.points :=
    stores_items
  have owns := stores (initialState source tokens) [] Arena.owns_empty
  unfold parse at parsed
  rcases run : items (initialState source tokens) with ⟨result, state⟩
  rw [run] at parsed owns
  dsimp only at parsed owns
  split at parsed
  · cases parsed
    rw [Program.wellFormed_iff]
    simpa [Program.points] using owns
  · cases parsed

end Grammar

theorem SourceText.wellFormed_of_parse {source : SourceText}
    {kind : SourceKind} {program : Program}
    (parsed : source.parse kind = .ok program) : program.WellFormed := by
  unfold SourceText.parse at parsed
  dsimp only at parsed
  split at parsed
  · cases parsed
  · exact Grammar.wellFormed_of_parse parsed

theorem SourceText.closed_of_parse {source : SourceText} {kind : SourceKind}
    {program : Program} (parsed : source.parse kind = .ok program) :
    program.Closed :=
  (SourceText.wellFormed_of_parse parsed).closed

end PluginSurface
