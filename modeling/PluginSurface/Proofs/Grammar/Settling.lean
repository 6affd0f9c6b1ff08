import PluginSurface.Proofs.Grammar.Progress

/-!
# Bounds that decide nothing

The loops of the grammar and the parts that nest count down a bound. A bound
above the number of tokens that are left is not used up, whatever the tokens
are: any two such bounds give the same result and leave the same state.
-/

namespace PluginSurface.Grammar

variable {Result Next : Type} {state : State} {limit : Nat}

/-! ## Parsers that agree -/

/-- Two parsers do the same in a state, if fewer tokens are left there than a
limit. -/
def AgreeIn (state : State) (limit : Nat) (left right : Parse Result) : Prop :=
  state.Ends → state.rest.length < limit → left state = right state

/-- Two parsers do the same wherever fewer tokens are left than a limit. -/
def Agree (limit : Nat) (left right : Parse Result) : Prop :=
  ∀ state, AgreeIn state limit left right

namespace AgreeIn

theorem refl {parser : Parse Result} : AgreeIn state limit parser parser :=
  fun _ _ => rfl

theorem bind {left right : Parse Result} {next other : Result → Parse Next}
    [Steady left] (first : AgreeIn state limit left right)
    (second : ∀ result, Agree limit (next result) (other result)) :
    AgreeIn state limit (left >>= next) (right >>= other) := by
  intro ends short
  have same := first ends short
  rcases ran : left state with ⟨_ | result, later⟩
  · simp only [Bind.bind, ← same, ran]
  · simp only [Bind.bind, ← same, ran]
    have passes := Steady.of_state ran
    exact second result later (passes.ends ends)
      (Nat.lt_of_le_of_lt passes.length_le short)

/-- What follows a token that is taken has one token fewer. -/
theorem takes {parser : Parse Result} {next other : Result → Parse Next}
    (first : TakesIn state parser)
    (second : ∀ result, Agree limit (next result) (other result))
    [Steady parser] :
    AgreeIn state (limit + 1) (parser >>= next) (parser >>= other) := by
  intro ends short
  rcases ran : parser state with ⟨_ | result, later⟩
  · simp only [Bind.bind, ran]
  · simp only [Bind.bind, ran]
    have passes := Steady.of_state ran
    have shorter := first ends result later ran
    exact second result later (passes.ends ends) (by omega)

theorem advance {next other : Unit → Parse Next}
    (notEnd : state.current.kind ≠ .endOfFile)
    (second : Agree limit (next ()) (other ())) :
    AgreeIn state (limit + 1) (Grammar.advance >>= next)
      (Grammar.advance >>= other) :=
  .takes (.advance notEnd) fun _ => second

theorem inspect {view : State → Result} {next other : Result → Parse Next}
    (second : AgreeIn state limit (next (view state)) (other (view state))) :
    AgreeIn state limit (Parse.inspect view >>= next)
      (Parse.inspect view >>= other) :=
  second

end AgreeIn

namespace Agree

theorem refl {parser : Parse Result} : Agree limit parser parser :=
  fun _ => .refl

theorem zero {left right : Parse Result} : Agree 0 left right :=
  fun _ _ short => absurd short (Nat.not_lt_zero _)

theorem mono {less : Nat} {left right : Parse Result}
    (agree : Agree limit left right) (below : less ≤ limit) :
    Agree less left right :=
  fun state ends short => agree state ends (Nat.lt_of_lt_of_le short below)

theorem bind {left right : Parse Result} {next other : Result → Parse Next}
    [Steady left] (first : Agree limit left right)
    (second : ∀ result, Agree limit (next result) (other result)) :
    Agree limit (left >>= next) (right >>= other) :=
  fun state => (first state).bind second

theorem thenSame {left right : Parse Result} {next : Result → Parse Next}
    (first : Agree limit left right) :
    Agree limit (left >>= next) (right >>= next) := by
  intro state ends short
  simp only [Bind.bind, first state ends short]

theorem after {parser : Parse Result} {next other : Result → Parse Next}
    [Steady parser]
    (second : ∀ result, Agree limit (next result) (other result)) :
    Agree limit (parser >>= next) (parser >>= other) :=
  refl.bind second

theorem takes {parser : Parse Result} {next other : Result → Parse Next}
    [Steady parser] (first : Takes parser)
    (second : ∀ result, Agree limit (next result) (other result)) :
    Agree (limit + 1) (parser >>= next) (parser >>= other) :=
  fun state => .takes (first state) second

theorem inspect {view : State → Result} {next other : Result → Parse Next}
    (second : ∀ state,
      AgreeIn state limit (next (view state)) (other (view state))) :
    Agree limit (Parse.inspect view >>= next) (Parse.inspect view >>= other) :=
  second

theorem ite {condition : Prop} [Decidable condition]
    {left right leftElse rightElse : Parse Result}
    (whenTrue : Agree limit left right)
    (whenFalse : Agree limit leftElse rightElse) :
    Agree limit (if condition then left else leftElse)
      (if condition then right else rightElse) := by
  split
  · exact whenTrue
  · exact whenFalse

theorem eatSymbol {mark : Symbol} {next other : Bool → Parse Next}
    (taken : Agree limit (next true) (other true))
    (kept : Agree (limit + 1) (next false) (other false)) :
    Agree (limit + 1) (eatSymbol mark >>= next) (eatSymbol mark >>= other) := by
  intro state ends short
  rw [eatSymbol_bind, eatSymbol_bind]
  split
  · next found =>
      have shorter := State.length_advance_lt ends (isSymbol_ne_end found)
      exact taken _ (state.passes_advance.ends ends) (by omega)
  · exact kept state ends short

end Agree

/-! ## Bounds -/

/-- One more step makes no difference to a bound above the number of tokens that
are left. -/
def Settled (family : Nat → Parse Result) : Prop :=
  ∀ bound, Agree bound (family bound) (family (bound + 1))

/-- Families settle together if each member agrees with the next one of its
family as far as all members before them do. -/
theorem settled_of_steps {Index : Type} (family : Index → Nat → Parse Result)
    (step : ∀ bound,
      (∀ index, Agree bound (family index bound) (family index (bound + 1))) →
        ∀ index, Agree (bound + 1) (family index (bound + 1))
          (family index (bound + 2))) (index : Index) :
    Settled (family index) := by
  intro bound
  induction bound generalizing index with
  | zero => exact .zero
  | succ bound inductionHypothesis => exact step bound inductionHypothesis index

theorem Settled.of_step {family : Nat → Parse Result}
    (step : ∀ bound, Agree bound (family bound) (family (bound + 1)) →
      Agree (bound + 1) (family (bound + 1)) (family (bound + 2))) :
    Settled family :=
  settled_of_steps (fun _ => family) (fun bound inner _ => step bound (inner ())) ()

/-- Two families agree, with what they repeat, if each of their members does so
as far as the members before them do. -/
theorem Agree.of_steps {item other : Parse Result} (left right : Nat → Parse Next)
    (start : left 0 = right 0)
    (step : ∀ limit bound, Agree (limit + 1) item other →
      Agree limit (left bound) (right bound) →
        Agree (limit + 1) (left (bound + 1)) (right (bound + 1)))
    (agree : Agree limit item other) (bound : Nat) :
    Agree limit (left bound) (right bound) := by
  induction bound generalizing limit with
  | zero => exact start ▸ .refl
  | succ bound inductionHypothesis =>
      cases limit with
      | zero => exact .zero
      | succ limit =>
          exact step limit bound agree
            (inductionHypothesis (agree.mono (Nat.le_succ limit)))

theorem Settled.eq_of_lt {family : Nat → Parse Result} (settled : Settled family)
    (ends : state.Ends) {bound : Nat} (above : state.rest.length < bound) :
    family bound state = family (state.rest.length + 1) state := by
  induction above with
  | refl => rfl
  | @step bound above inductionHypothesis =>
      rw [← settled bound state ends above, inductionHypothesis]

section

variable {item other : Parse Result} [Steady item] {closing : Symbol}
  {bound further : Nat}

theorem agree_itemsUntil_succ (agree : Agree (limit + 1) item other)
    (inner : Agree limit (itemsUntil closing item bound)
      (itemsUntil closing other further)) :
    Agree (limit + 1) (itemsUntil closing item (bound + 1))
      (itemsUntil closing other (further + 1)) := by
  unfold itemsUntil
  exact .after fun isClosed => .after fun isEnd => .ite .refl <|
    agree.bind fun first => .eatSymbol inner.thenSame .refl

theorem settled_itemsUntil : Settled (itemsUntil closing item) :=
  .of_step fun _ inner => agree_itemsUntil_succ .refl inner

theorem agree_itemsUntil (agree : Agree limit item other) (bound : Nat) :
    Agree limit (itemsUntil closing item bound)
      (itemsUntil closing other bound) :=
  .of_steps (itemsUntil closing item) (itemsUntil closing other) rfl
    (fun _ _ => agree_itemsUntil_succ) agree bound

theorem agree_listUntil (agree : Agree limit item other) :
    Agree limit (listUntil closing item) (listUntil closing other) := by
  unfold listUntil
  exact .after fun bound => (agree_itemsUntil agree bound).thenSame

theorem agree_separatedItems_succ (agree : Agree (limit + 1) item other)
    (inner : Agree limit (separatedItems item bound)
      (separatedItems other further)) :
    Agree (limit + 1) (separatedItems item (bound + 1))
      (separatedItems other (further + 1)) := by
  unfold separatedItems
  exact agree.bind fun first => .eatSymbol inner.thenSame .refl

theorem settled_separatedItems : Settled (separatedItems item) :=
  .of_step fun _ inner => agree_separatedItems_succ .refl inner

theorem agree_separatedItems (agree : Agree limit item other) (bound : Nat) :
    Agree limit (separatedItems item bound) (separatedItems other bound) :=
  .of_steps (separatedItems item) (separatedItems other) rfl
    (fun _ _ => agree_separatedItems_succ) agree bound

theorem agree_separated (agree : Agree limit item other) :
    Agree limit (separated item) (separated other) := by
  unfold separated
  exact .after fun bound => agree_separatedItems agree bound

end

/-! ## Types -/

theorem settled_moreSegments : Settled moreSegments := by
  refine .of_step fun bound inner => ?_
  unfold moreSegments
  exact .eatSymbol (.after fun segment => inner.thenSame) .refl

theorem settled_arraySuffixes (start : Span) (type : TypeExpr) :
    Settled fun bound => arraySuffixes start bound type := by
  refine settled_of_steps (fun type bound => arraySuffixes start bound type)
    (fun bound inner type => ?_) type
  unfold arraySuffixes
  refine .inspect fun state => .inspect ?_
  split
  · next opens =>
      rw [Bool.and_eq_true] at opens
      exact .advance (isSymbol_ne_end opens.1)
        (.after fun _ => .after fun span => inner _)
  · exact .refl

section

variable {nested other : Parse TypeExpr} [Steady nested]

theorem agree_primaryType (agree : Agree limit nested other) :
    Agree (limit + 1) (primaryType nested) (primaryType other) := by
  have arguments := agree_separated agree
  unfold primaryType
  dsimp only
  exact .after fun start => .eatSymbol agree.thenSame <|
    .after fun first => .after fun bound => .after fun more =>
      .eatSymbol arguments.thenSame .refl

theorem agree_typeStep (agree : Agree limit nested other) :
    Agree (limit + 1) (typeStep nested) (typeStep other) := by
  unfold typeStep
  exact .after fun start => (agree_primaryType agree).thenSame

end

theorem settled_typeAt : Settled typeAt :=
  .of_step fun _ => agree_typeStep

/-! ## Expressions -/

theorem agree_nested {left right : Parse Result} (agree : Agree limit left right) :
    Agree limit (nested left) (nested right) := by
  intro state ends short
  unfold nested
  rw [agree { state with depth := state.depth + 1 } ends short]

section

variable {sub other : ExprGoal → Parse ExprId} [∀ goal, Steady (sub goal)]

theorem agree_arguments (agree : ∀ goal, Agree limit (sub goal) (other goal)) :
    Agree limit (arguments sub) (arguments other) :=
  agree_listUntil (agree .expression)

omit [∀ goal, Steady (sub goal)] in
theorem agree_objectEntry
    (agree : ∀ goal, Agree limit (sub goal) (other goal)) :
    Agree limit (objectEntry sub) (objectEntry other) := by
  unfold objectEntry
  refine .after fun kind => ?_
  split <;>
    exact .after fun key => .after fun isColon =>
      .ite (agree .expression).thenSame .refl

theorem agree_primaryNode
    (agree : ∀ goal, Agree limit (sub goal) (other goal)) :
    Agree (limit + 1) (primaryNode sub) (primaryNode other) := by
  have arguments := agree_arguments agree
  refine .inspect fun state => ?_
  split
  case h_9 found =>
    exact .advance (by simp [found]) <| .after fun type =>
      .after fun isOpen => .ite arguments.thenSame .refl
  case h_11 found =>
    exact .advance (by simp [found]) (agree .expression).thenSame
  case h_12 found =>
    exact .advance (by simp [found]) (agree_listUntil (agree .expression)).thenSame
  case h_13 found =>
    exact .advance (by simp [found]) (agree_listUntil (agree_objectEntry agree)).thenSame
  all_goals exact .refl

theorem agree_primary (agree : ∀ goal, Agree limit (sub goal) (other goal)) :
    Agree (limit + 1) (primary sub) (primary other) := by
  unfold primary
  exact .after fun start => (agree_primaryNode agree).thenSame

theorem agree_accesses_succ
    (agree : ∀ goal, Agree limit (sub goal) (other goal)) {bound further : Nat}
    (inner : ∀ expr,
      Agree limit (accesses sub bound expr) (accesses other further expr))
    (expr : ExprId) :
    Agree (limit + 1) (accesses sub (bound + 1) expr)
      (accesses other (further + 1) expr) := by
  have arguments := agree_arguments agree
  unfold accesses
  refine .inspect fun state => ?_
  split
  · next found =>
      exact .advance (by simp [found]) <| arguments.bind fun values =>
        .after fun base => .after fun span => .after fun call => inner call
  · next found =>
      refine .inspect ?_
      split
      · exact .advance (by simp [found]) <| .after fun types =>
          .after fun _ => .after fun _ => arguments.bind fun values =>
            .after fun base => .after fun span => .after fun call => inner call
      · exact .refl
  · next found =>
      exact .advance (by simp [found]) <| .after fun property =>
        .after fun base => .after fun member => inner member
  · next found =>
      exact .advance (by simp [found]) <| (agree .expression).bind fun index =>
        .after fun _ => .after fun base => .after fun span =>
          .after fun access => inner access
  · exact .refl

theorem agree_accesses (agree : ∀ goal, Agree limit (sub goal) (other goal))
    (bound : Nat) (expr : ExprId) :
    Agree (limit + 1) (accesses sub bound expr) (accesses other bound expr) := by
  induction bound generalizing expr with
  | zero => exact .refl
  | succ bound inductionHypothesis =>
      exact agree_accesses_succ agree
        (fun expr => (inductionHypothesis expr).mono (Nat.le_succ limit)) expr

theorem settled_accesses (expr : ExprId) :
    Settled fun bound => accesses sub bound expr :=
  settled_of_steps (fun expr bound => accesses sub bound expr)
    (fun _ => agree_accesses_succ fun _ => .refl) expr

theorem agree_unary (agree : ∀ goal, Agree limit (sub goal) (other goal)) :
    Agree (limit + 1) (unary sub) (unary other) := by
  refine .inspect fun state => ?_
  split
  · next operator found =>
      exact .inspect (.advance (kind_ne_of_some found rfl) (agree .unary).thenSame)
  · exact (agree_primary agree).bind
      (fun expr => .after fun bound => agree_accesses agree bound expr) state

theorem agree_binaryRest_succ
    (agree : ∀ goal, Agree limit (sub goal) (other goal))
    {least bound further : Nat}
    (inner : ∀ left, Agree limit (binaryRest sub least bound left)
      (binaryRest other least further left)) (left : ExprId) :
    Agree (limit + 1) (binaryRest sub least (bound + 1) left)
      (binaryRest other least (further + 1) left) := by
  unfold binaryRest
  refine .inspect fun state => ?_
  split
  · next isCast =>
      rw [Bool.and_eq_true] at isCast
      exact .advance (isKeyword_ne_end isCast.1) <| .after fun type =>
        .after fun span => .after fun cast => inner cast
  · refine .inspect ?_
    split
    · exact .refl
    · next operator found =>
        split
        · exact .refl
        · exact .advance (kind_ne_of_some found rfl) <|
            (agree (.binary (operator.precedence + 1))).bind fun right =>
              .after fun leftSpan => .after fun rightSpan =>
                .after fun whole => inner whole

theorem agree_binaryRest (agree : ∀ goal, Agree limit (sub goal) (other goal))
    (least bound : Nat) (left : ExprId) :
    Agree (limit + 1) (binaryRest sub least bound left)
      (binaryRest other least bound left) := by
  induction bound generalizing left with
  | zero => exact .refl
  | succ bound inductionHypothesis =>
      exact agree_binaryRest_succ agree
        (fun left => (inductionHypothesis left).mono (Nat.le_succ limit)) left

theorem settled_binaryRest (least : Nat) (left : ExprId) :
    Settled fun bound => binaryRest sub least bound left :=
  settled_of_steps (fun left bound => binaryRest sub least bound left)
    (fun _ => agree_binaryRest_succ fun _ => .refl) left

theorem agree_binary (agree : ∀ goal, Agree limit (sub goal) (other goal))
    (least : Nat) :
    Agree (limit + 1) (binary sub least) (binary other least) := by
  unfold binary
  exact (agree_unary agree).bind fun left => .after fun bound =>
    agree_binaryRest agree least bound left

theorem agree_conditional
    (agree : ∀ goal, Agree limit (sub goal) (other goal)) :
    Agree (limit + 1) (conditional sub) (conditional other) := by
  have branch := agree .assignment
  unfold conditional
  exact (agree_binary agree 1).bind fun condition =>
    .eatSymbol (branch.bind fun whenTrue => .after fun _ => branch.thenSame)
      .refl

theorem agree_assignment (agree : ∀ goal, Agree limit (sub goal) (other goal)) :
    Agree (limit + 1) (assignment sub) (assignment other) := by
  unfold assignment
  refine (agree_conditional agree).bind fun target => .inspect fun state => ?_
  split
  · exact .refl
  · next operator found =>
      refine .inspect ?_
      split
      · exact .advance (kind_ne_of_some found rfl) (agree .assignment).thenSame
      · exact .refl

theorem agree_goalStep (agree : ∀ goal, Agree limit (sub goal) (other goal)) :
    ∀ goal, Agree (limit + 1) (goalStep sub goal) (goalStep other goal) := by
  intro goal
  cases goal with
  | expression => exact agree_nested (agree_assignment agree)
  | assignment => exact agree_assignment agree
  | binary least => exact agree_binary agree least
  | unary => exact agree_unary agree

end

theorem settled_goalAt (goal : ExprGoal) : Settled fun bound => goalAt bound goal :=
  settled_of_steps (fun goal bound => goalAt bound goal)
    (fun _ => agree_goalStep) goal

/-! ## Loops and statements -/

theorem settled_rounds {round : State → Option (Option Result × State)}
    (forward : Forward round) : Settled (rounds round) := by
  refine .of_step fun bound inner state ends short => ?_
  rw [rounds_succ, rounds_succ]
  rcases ran : round state with _ | went
  · rfl
  · obtain ⟨passes, shorter⟩ := forward state went ends ran
    exact inner.thenSame went.2 (passes.ends ends) (by omega)

section

variable {statement other : Parse StmtId} [Steady statement]

theorem settled_statementsUntilBrace (takes : Takes statement) :
    Settled (statementsUntilBrace statement) := by
  rw [funext (statementsUntilBrace_eq_rounds statement)]
  exact settled_rounds (forward_statementRound takes)

theorem agree_attempt {left right : Parse Result}
    (agree : Agree limit left right) :
    Agree limit (Parse.attempt left) (Parse.attempt right) := by
  intro state ends short
  simp only [Parse.attempt, agree state ends short]

theorem agree_statementsUntilBrace (agree : Agree limit statement other) :
    ∀ bound, Agree limit (statementsUntilBrace statement bound)
      (statementsUntilBrace other bound) := by
  intro bound
  induction bound with
  | zero => exact .refl
  | succ bound inductionHypothesis =>
      unfold statementsUntilBrace
      refine .after fun isClosed => .after fun isEnd => .after fun isFull =>
        .ite .refl <| .after fun start => (agree_attempt agree).bind fun found => ?_
      split
      · exact inductionHypothesis.thenSame
      · exact .after fun _ => inductionHypothesis

theorem agree_blockOf (agree : Agree limit statement other) :
    Agree (limit + 1) (blockOf statement) (blockOf other) := by
  unfold blockOf
  exact .after fun start => .takes .expectSymbol fun _ => .after fun bound =>
    (agree_statementsUntilBrace agree bound).thenSame

theorem agree_branchNode (agree : Agree limit statement other) :
    Agree limit (branchNode statement) (branchNode other) := by
  unfold branchNode
  exact .after fun _ => .after fun condition => .after fun _ =>
    agree.bind fun whenTrue => .after fun isElse => .ite agree.thenSame .refl

omit [Steady statement] in
theorem agree_loopNode (agree : Agree limit statement other) :
    Agree limit (loopNode statement) (loopNode other) := by
  unfold loopNode
  exact .after fun _ => .after fun condition => .after fun _ => agree.thenSame

theorem agree_statementStep (agree : Agree limit statement other) :
    Agree (limit + 1) (statementStep statement) (statementStep other) := by
  unfold statementStep
  refine .after fun start => .thenSame <| .inspect fun state => ?_
  split
  case h_1 found => exact (agree_blockOf agree).thenSame state
  case h_6 found => exact .advance (by simp [found]) (agree_branchNode agree)
  case h_7 found => exact .advance (by simp [found]) (agree_loopNode agree)
  all_goals exact .refl

end

theorem settled_statementAt : Settled statementAt :=
  .of_step fun _ => agree_statementStep

/-! ## Declarations -/

theorem settled_decoratorsAt : Settled decoratorsAt := by
  refine .of_step fun bound inner => ?_
  unfold decoratorsAt
  exact .after fun start =>
    .eatSymbol (.after fun first => inner.thenSame) .refl

theorem isKeyword_of_parameterModifier {later : State}
    (found : parameterModifier state = (some true, later)) :
    later = state ∧ ∃ word, state.current.kind = .keyword word := by
  simp only [parameterModifier, currentKind, Parse.inspect, Bind.bind]
    at found
  generalize current : state.current.kind = kind at found
  cases kind with
  | keyword word =>
      refine ⟨?_, word, rfl⟩
      cases word <;> exact (congrArg Prod.snd found).symm
  | _ => cases found

theorem settled_skipParameterModifiers : Settled skipParameterModifiers := by
  refine .of_step fun bound inner => ?_
  unfold skipParameterModifiers
  intro state ends short
  rcases ran : parameterModifier state with ⟨_ | _ | _, later⟩
  · simp only [Bind.bind, ran]
  · simp [Bind.bind, ran]
  · obtain ⟨rfl, word, found⟩ := isKeyword_of_parameterModifier ran
    have agree : AgreeIn later (bound + 1)
        (advance >>= fun _ => skipParameterModifiers bound)
        (advance >>= fun _ => skipParameterModifiers (bound + 1)) :=
      .advance (by simp [found]) inner
    simpa [Bind.bind, ran] using agree ends short

theorem settled_memberModifiers : Settled memberModifiers := by
  refine .of_step fun bound inner => ?_
  unfold memberModifiers
  refine .inspect fun state => .inspect ?_
  split
  · next isModifier =>
      rw [Bool.and_eq_true] at isModifier
      refine .advance (fun isEnd => ?_) inner.thenSame
      rw [isEnd] at isModifier
      cases isModifier.1
  · exact .refl

theorem settled_membersUntilBrace : Settled membersUntilBrace := by
  rw [funext membersUntilBrace_eq_rounds]
  exact settled_rounds forward_memberRound

theorem settled_itemsToEnd : Settled itemsToEnd := by
  rw [funext itemsToEnd_eq_rounds]
  exact settled_rounds forward_itemRound

end PluginSurface.Grammar
