import PluginSurface.Proofs.Grammar.Settling

/-!
# Runs of the grammar

From the tokens of a file on, every parser of the grammar keeps its place among
them and its depth, no bound is used up, and the loops go on to a last round,
each round before it further on than the one before.
-/

namespace PluginSurface.Grammar

variable {Result : Type}

/-! ## Levels -/

/-- Counts one level up, reads, and counts one level down again, whether what is
read is too deep, fails or gives a result. -/
def counted (parser : Parse Result) : Parse Result :=
  fun state =>
    let deeper : State := { state with depth := state.depth + 1 }
    let (result, later) :=
      if nestingLimit < deeper.depth then
        failHere (fun _ => .nestingTooDeep nestingLimit) deeper
      else parser deeper
    (result, { later with depth := later.depth - 1 })

/-- Setting the level back is counting down: a parser leaves its level as it
found it. -/
theorem nested_eq_counted (parser : Parse Result) [steady : Steady parser] :
    nested parser = counted parser := by
  funext state
  unfold nested counted
  dsimp only
  by_cases tooDeep : nestingLimit ≤ state.depth
  · rw [if_pos tooDeep, if_pos (Nat.lt_succ_of_le tooDeep)]
    rfl
  · rw [if_neg tooDeep, if_neg (mt Nat.lt_succ_iff.mp tooDeep)]
    have passes := steady.passes { state with depth := state.depth + 1 }
    rw [passes.depth, Nat.add_sub_cancel]

/-! ## Productions -/

/-- The parsers of the grammar, down to those that skip tokens. -/
inductive Production : {Result : Type} → Parse Result → Prop where
  | type (bound : Nat) : Production (typeAt bound)
  | wholeType : Production typeExpr
  | goal (bound : Nat) (goal : ExprGoal) : Production (goalAt bound goal)
  | expression : Production expression
  | statement (bound : Nat) : Production (statementAt bound)
  | block : Production block
  | decorators : Production decorators
  | parameter : Production parameter
  | parameters : Production parameters
  | typeParameters : Production skipTypeParameters
  | function (decorators : List Decorator) (isExported isDeclared : Bool)
      (start : Span) :
      Production (functionDecl decorators isExported isDeclared start)
  | member : Production classMember
  | class (decorators : List Decorator) (isExported : Bool) (start : Span) :
      Production (classDecl decorators isExported start)
  | variable (kind : BindingKind) (decorators : List Decorator)
      (isExported : Bool) (start : Span) :
      Production (variableDecl kind decorators isExported start)
  | exportList (start : Span) : Production (exportDecl start)
  | importList (start : Span) : Production (importDecl start)
  | item : Production item
  | items : Production items
  | closingAngle : Production expectClosingAngle
  | skipStatement : Production skipStatement
  | recover (start : Span) : Production (recoverStatement start)
  | skipMember : Production skipMember
  | skipItem : Production skipItem

theorem Production.steady {parser : Parse Result}
    (production : Production parser) : Steady parser := by
  cases production <;> infer_instance

/-- The parsers that count down a bound: loops, and parsers that nest. -/
inductive Countdown : {Result : Type} → (Nat → Parse Result) → Prop where
  | listUntil {Result : Type} (closing : Symbol) (item : Parse Result)
      (steady : Steady item) : Countdown (itemsUntil closing item)
  | separated {Result : Type} (item : Parse Result) (steady : Steady item) :
      Countdown (separatedItems item)
  | segments : Countdown moreSegments
  | arrays (start : Span) (type : TypeExpr) :
      Countdown fun bound => arraySuffixes start bound type
  | types : Countdown typeAt
  | accesses (depth : Nat) (expr : ExprId) :
      Countdown fun bound => accesses (goalAt depth) bound expr
  | operators (depth least : Nat) (left : ExprId) :
      Countdown fun bound => binaryRest (goalAt depth) least bound left
  | goals (goal : ExprGoal) : Countdown fun bound => goalAt bound goal
  | blockStatements (depth : Nat) :
      Countdown (statementsUntilBrace (statementAt depth))
  | statements : Countdown statementAt
  | decorators : Countdown decoratorsAt
  | parameterModifiers : Countdown skipParameterModifiers
  | memberModifiers : Countdown memberModifiers
  | members : Countdown membersUntilBrace
  | items : Countdown itemsToEnd

theorem Countdown.settled {family : Nat → Parse Result}
    (countdown : Countdown family) : Settled family := by
  cases countdown with
  | listUntil closing item steady => exact settled_itemsUntil
  | separated item steady => exact settled_separatedItems
  | segments => exact settled_moreSegments
  | arrays start type => exact settled_arraySuffixes start type
  | types => exact settled_typeAt
  | accesses depth expr => exact settled_accesses expr
  | operators depth least left => exact settled_binaryRest least left
  | goals goal => exact settled_goalAt goal
  | blockStatements depth =>
      exact settled_statementsUntilBrace (takes_statementAt depth)
  | statements => exact settled_statementAt
  | decorators => exact settled_decoratorsAt
  | parameterModifiers => exact settled_skipParameterModifiers
  | memberModifiers => exact settled_memberModifiers
  | members => exact settled_membersUntilBrace
  | items => exact settled_itemsToEnd

/-! ## Loops -/

/-- A loop with a bound above the number of tokens that are left goes on until
there is no further round. -/
theorem Forward.lasts {round : State → Option (Option Result × State)}
    (forward : Forward round) {bound : Nat} {state : State} (ends : state.Ends)
    (above : state.rest.length < bound) :
    ∃ results last, rounds round bound state = (some results, last) ∧
      round last = none := by
  induction bound generalizing state with
  | zero => exact absurd above (Nat.not_lt_zero _)
  | succ bound inductionHypothesis =>
      rw [rounds_succ]
      rcases ran : round state with _ | went
      · exact ⟨[], state, rfl, ran⟩
      · obtain ⟨passes, shorter⟩ := forward state went ends ran
        obtain ⟨others, last, further, isLast⟩ :=
          inductionHypothesis (passes.ends ends) (by omega)
        refine ⟨went.1.toList ++ others, last, ?_, isLast⟩
        simp only [Bind.bind, further]
        rfl

/-- A loop that goes through its rounds to a last one: every other round moves
on in the tokens. -/
structure GoesThrough (loop : Nat → Parse (List Result))
    (round : State → Option (Option Result × State)) : Prop where
  rounds : ∀ bound, loop bound = rounds round bound
  forward : Forward round
  lasts : ∀ bound state, state.Ends → state.rest.length < bound →
    ∃ results last, loop bound state = (some results, last) ∧
      round last = none

theorem Forward.goesThrough {loop : Nat → Parse (List Result)}
    {round : State → Option (Option Result × State)} (forward : Forward round)
    (same : ∀ bound, loop bound = Grammar.rounds round bound) :
    GoesThrough loop round where
  rounds := same
  forward := forward
  lasts bound state ends above := by
    rw [same]
    exact forward.lasts ends above

/-- Parsing makes progress, whatever the tokens are. -/
theorem parsing_progresses (source : SourceText) (tokens : List Token) :
    (initialState source tokens).Behind [] ∧
    (∀ {Result : Type} {parser : Parse Result}, Production parser →
      ∀ state front, state.Behind front →
        state.LooksWithin (front ++ state.rest) front.length ∧
        (∃ passed, (parser state).2.Behind passed ∧
          front.length ≤ passed.length ∧
          (passed ++ (parser state).2.rest).length =
            (front ++ state.rest).length) ∧
        (parser state).2.depth = state.depth) ∧
    (∀ bound, goalAt (bound + 1) .expression =
      counted (assignment (goalAt bound))) ∧
    (∀ {Result : Type} {family : Nat → Parse Result}, Countdown family →
      ∀ state front, state.Behind front →
        ∀ bound, state.rest.length < bound →
          family bound state = family (state.rest.length + 1) state) ∧
    GoesThrough itemsToEnd itemRound ∧
    (∀ depth, GoesThrough (statementsUntilBrace (statementAt depth))
      (statementRound (statementAt depth))) ∧
    GoesThrough membersUntilBrace memberRound := by
  refine ⟨behind_initialState source tokens, ?places, ?levels, ?bounds,
    forward_itemRound.goesThrough itemsToEnd_eq_rounds,
    fun depth => (forward_statementRound (takes_statementAt depth)).goesThrough
      (statementsUntilBrace_eq_rounds _),
    forward_memberRound.goesThrough membersUntilBrace_eq_rounds⟩
  case places =>
    intro Result parser production state front behind
    have passes := production.steady.passes state
    exact ⟨behind.looksWithin, behind.of_passes passes, passes.depth⟩
  case levels =>
    intro bound
    exact nested_eq_counted (assignment (goalAt bound))
  case bounds =>
    intro Result family countdown state front behind bound above
    exact countdown.settled.eq_of_lt behind.ends above

end PluginSurface.Grammar
