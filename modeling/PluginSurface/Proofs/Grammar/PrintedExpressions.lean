import PluginSurface.Proofs.Grammar.ParsedExpressions
import PluginSurface.Proofs.Grammar.PrintedTypes

/-!
# Expressions as they are printed

The tokens of a printable expression are read as that expression. A parser of
calls and accesses, or of operators, first comes to the end of what stands to
their left, from where it goes on with what is left of it.
-/

namespace PluginSurface

open Grammar

/-! ## Tokens behind expressions -/

namespace Grammar

/-- Tokens in front of which every expression ends. -/
def endsExpression : TokenKind → Bool
  | .symbol .closeParen | .symbol .closeBracket | .symbol .closeBrace
  | .symbol .comma | .symbol .semicolon | .symbol .colon => true
  | _ => false

def Ended (after : List TokenKind) : Prop :=
  ∃ kind ∈ after.head?, endsExpression kind = true

theorem Ended.of_head {after : List TokenKind} {kind : TokenKind}
    (head : after.head? = some kind) (ends : endsExpression kind = true) :
    Ended after :=
  ⟨kind, head, ends⟩

theorem Ended.cons_eq {after : List TokenKind} (ended : Ended after) :
    ∃ mark rest, after = .symbol mark :: rest ∧
      endsExpression (.symbol mark) = true := by
  obtain ⟨kind, head, ends⟩ := ended
  cases after with
  | nil => cases head
  | cons first rest =>
      cases head
      cases kind with
      | symbol mark => exact ⟨mark, rest, rfl, ends⟩
      | _ => cases ends

end Grammar

namespace ExprTree

/-- What stands behind an expression continues neither its last operand nor the
type it ends in, and may be an operator after it. -/
structure EndsBefore (tree : ExprTree) (after : List TokenKind) : Prop where
  typed : ∀ type ∈ tree.endType?, type.EndsBefore after
  plain : tree.endType? = none → ¬ StartsAccess after
  admits : tree.AdmitsAt after

theorem endsBefore_of_symbol {tree : ExprTree} {mark : Symbol}
    (free : mark ≠ .openParen ∧ mark ≠ .openBracket ∧ mark ≠ .dot ∧
      mark ≠ .less ∧ mark ≠ .pipe)
    (noInfix : infixPrecedence? (.symbol mark) = none)
    (after : List TokenKind) : tree.EndsBefore (.symbol mark :: after) where
  typed type _ := by
    refine ⟨?_, ?_, fun _ => ?_, fun _ => ?_⟩
    · simpa using free.2.2.1
    · simpa using free.2.1
    · simpa using free.2.2.2.1
    · cases mark <;> simp_all [StartsNullable]
  plain _ := by cases mark <;> simp_all [StartsAccess]
  admits kind head precedence known := by
    cases head
    rw [noInfix] at known
    cases known

theorem endsBefore_of_ended {tree : ExprTree} {after : List TokenKind}
    (ended : Ended after) : tree.EndsBefore after := by
  obtain ⟨mark, rest, rfl, ends⟩ := ended.cons_eq
  refine endsBefore_of_symbol ?_ ?_ rest
  · cases mark <;> first | decide | cases ends
  · cases mark <;> first | rfl | cases ends

theorem stopped_of_no_operator {least : Nat} {kind : TokenKind}
    (noInfix : infixPrecedence? kind = none) (after : List TokenKind) :
    Stopped least (kind :: after) := by
  intro first head precedence known
  cases head
  rw [noInfix] at known
  cases known

theorem stopped_of_ended {least : Nat} {after : List TokenKind}
    (ended : Ended after) : Stopped least after := by
  obtain ⟨mark, rest, rfl, ends⟩ := ended.cons_eq
  refine stopped_of_no_operator ?_ rest
  cases mark <;> first | rfl | cases ends

theorem admits_of_le_loosest {tree : ExprTree} {precedence : Nat}
    (tight : precedence ≤ tree.loosest) : tree.admits precedence := by
  cases tree with
  | binary operator left right => exact (Nat.le_min.mp tight).1
  | _ => trivial

theorem endType?_of_tight (tree : ExprTree)
    (tight : unaryTightness ≤ tree.loosest) (grammatical : tree.Grammatical) :
    tree.endType? = none := by
  cases tree with
  | unary operator operand =>
      exact endType?_of_tight operand grammatical.1 grammatical.2
  | binary operator left right =>
      have loose := Nat.le_trans tight (Nat.min_le_left _ _)
      cases operator <;>
        simp [BinaryOperator.precedence, unaryTightness] at loose
  | cast operand type =>
      have loose := Nat.le_trans tight (Nat.min_le_left _ _)
      simp [castPrecedence, unaryTightness] at loose
  | assign | conditional => simp [loosest, unaryTightness] at tight
  | _ => rfl

/-- An expression that is read back from its tokens at a depth and in front of
others. -/
structure Prints (tree : ExprTree) (depth : Nat) (after : List TokenKind) :
    Prop where
  grammatical : tree.Grammatical
  printable : tree.isPrintable = true
  shallow : tree.printedNesting + depth ≤ nestingLimit
  unmistaken : tree.Unmistaken after

end ExprTree

/-! ## Readings -/

namespace Grammar

open ExprTree

section

variable {tree : ExprTree} {rest : List TokenKind}

/-- What an expression is read back as, and what is left. -/
def Shows (tree : ExprTree) (rest : List TokenKind) (id : ExprId)
    (later : State) : Prop :=
  later.arena.Depicts id tree.guarded ∧ later.kinds = rest

/-- A parser goes on with another one, which has enough fuel, when it has read
an expression. -/
def ComesTo (parser : Parse ExprId) (loop : Nat → ExprId → Parse ExprId)
    (state : State) (tree : ExprTree) (rest : List TokenKind) : Prop :=
  ∀ holds : ExprId → State → Prop,
    (∀ id later fuel, state.Reaches later → later.kinds.length < fuel + 1 →
      Shows tree rest id later → Gives later (loop (fuel + 1) id) holds) →
    Gives state parser holds

theorem ComesTo.goOn {loop : Nat → ExprId → Parse ExprId} {state later : State}
    {holds : ExprId → State → Prop} {id : ExprId} {fuel : Nat}
    (goesOn : ∀ id later fuel, state.Reaches later →
      later.kinds.length < fuel + 1 → Shows tree rest id later →
        Gives later (loop (fuel + 1) id) holds)
    (reaches : state.Reaches later) (fewer : later.kinds.length < fuel)
    (shows : Shows tree rest id later) : Gives later (loop fuel id) holds := by
  obtain ⟨fuel, rfl⟩ :=
    Nat.exists_eq_succ_of_ne_zero (Nat.ne_zero_of_lt fewer)
  exact goesOn id later fuel reaches fewer shows

section

variable {state later : State} {bound : Nat} {kind : TokenKind}
  {front left : List TokenKind}

/-- There are fewer tokens behind one of them. -/
theorem fewer_behind (inside : state.kinds = front ++ kind :: left)
    (enough : state.kinds.length ≤ bound) (onward : later.kinds = left) :
    later.kinds.length < bound := by
  rw [inside, List.length_append, List.length_cons] at enough
  rw [onward]
  omega

theorem fewer_tail (inside : state.kinds = kind :: left)
    (enough : state.kinds.length ≤ bound) (onward : later.kinds = left) :
    later.kinds.length < bound := by
  rw [inside, List.length_cons] at enough
  rw [onward]
  exact enough

end

/-- How an expression is read back at one level of tightness. -/
def PrintedPostfix (tree : ExprTree) : Prop :=
  ∀ ⦃bound : Nat⦄ ⦃state : State⦄ ⦃rest : List TokenKind⦄, state.Ready →
    state.kinds = tree.kinds ++ rest → state.kinds.length ≤ bound →
    tree.Prints state.depth rest →
      ComesTo (unary (goalAt bound)) (accesses (goalAt bound)) state tree rest

def PrintedUnary (tree : ExprTree) : Prop :=
  ∀ ⦃bound : Nat⦄ ⦃state : State⦄ ⦃rest : List TokenKind⦄, state.Ready →
    state.kinds = tree.kinds ++ rest → state.kinds.length ≤ bound →
    tree.Prints state.depth rest → tree.EndsBefore rest →
      Gives state (unary (goalAt bound)) (Shows tree rest)

def PrintedBinary (tree : ExprTree) : Prop :=
  ∀ ⦃least bound : Nat⦄ ⦃state : State⦄ ⦃rest : List TokenKind⦄, state.Ready →
    state.kinds = tree.kinds ++ rest → state.kinds.length ≤ bound →
    tree.Prints state.depth rest → least ≤ tree.loosest →
    tree.EndsBefore rest →
      ComesTo (binary (goalAt bound) least) (binaryRest (goalAt bound) least)
        state tree rest

def PrintedAssignment (tree : ExprTree) : Prop :=
  ∀ ⦃bound : Nat⦄ ⦃state : State⦄ ⦃rest : List TokenKind⦄, state.Ready →
    state.kinds = tree.kinds ++ rest → state.kinds.length ≤ bound →
    tree.Prints state.depth rest → Ended rest →
      Gives state (assignment (goalAt bound)) (Shows tree rest)

/-! ### Ends -/

theorem gives_accesses_end {sub : ExprGoal → Parse ExprId} {bound : Nat}
    {id : ExprId} {state : State} (ready : state.Ready)
    (stopped : ¬ StartsAccess state.kinds) :
    Gives state (accesses sub bound id) fun result later =>
      result = id ∧ later = state := by
  cases bound with
  | zero => exact .pure ready ⟨rfl, rfl⟩
  | succ bound =>
      refine .inspect ?_
      have found := State.current_eq ready
      split
      · next isOpen =>
          rw [ready.kinds_eq isOpen (by simp)] at stopped
          exact absurd trivial stopped
      · next isLess =>
          have kinds := ready.kinds_eq isLess (by simp)
          rw [kinds] at stopped
          refine .inspect (.isFalse ?_ (.pure ready ⟨rfl, rfl⟩))
          rw [closesBeforeCall_eq]
          change ¬ (_ && closes 0 state.kinds) = true
          intro both
          rw [Bool.and_eq_true, kinds] at both
          exact stopped
            (by simpa [closes, angleChange?, StartsAccess] using both.2)
      · next isDot =>
          rw [ready.kinds_eq isDot (by simp)] at stopped
          exact absurd trivial stopped
      · next isBracket =>
          rw [ready.kinds_eq isBracket (by simp)] at stopped
          exact absurd trivial stopped
      · exact .pure ready ⟨rfl, rfl⟩

theorem gives_binaryRest_end {sub : ExprGoal → Parse ExprId}
    {least bound : Nat} {left : ExprId} {state : State} (ready : state.Ready)
    (stopped : Stopped least state.kinds) :
    Gives state (binaryRest sub least bound left) fun result later =>
      result = left ∧ later = state := by
  cases bound with
  | zero => exact .pure ready ⟨rfl, rfl⟩
  | succ bound =>
      have loose {kind : TokenKind} (found : state.current.kind = kind)
          (notEnd : kind ≠ .endOfFile) {precedence : Nat}
          (known : infixPrecedence? kind = some precedence) :
          precedence < least :=
        stopped kind (by rw [ready.kinds_eq found notEnd]; rfl) _ known
      refine .inspect (.isFalse ?_ (.inspect ?_))
      · intro isCast
        simp only [Bool.and_eq_true, isKeyword_iff, decide_eq_true_eq] at isCast
        have tight := loose isCast.1 (by simp) rfl
        omega
      · split
        · exact .pure ready ⟨rfl, rfl⟩
        · next operator known =>
            have found := binaryOperator?_eq known
            exact .isTrue (loose found (by simp) (infixPrecedence?_symbol operator))
              (.pure ready ⟨rfl, rfl⟩)

/-! ### Levels -/

theorem PrintedPostfix.unary (printed : PrintedPostfix tree)
    (tight : postfixTightness ≤ tree.loosest) : PrintedUnary tree := by
  intro bound state rest ready kinds enough prints ends
  refine printed ready kinds enough prints _ fun id later fuel reaches _ shows => ?_
  refine (gives_accesses_end reaches.ready ?_).imp ?_
  · rw [shows.2]
    exact ends.plain (endType?_of_tight tree (Nat.le_of_lt tight)
      prints.grammatical)
  · rintro result last _ ⟨rfl, rfl⟩
    exact shows

theorem PrintedUnary.binary (printed : PrintedUnary tree) :
    PrintedBinary tree := by
  intro least bound state rest ready kinds enough prints _ ends holds goesOn
  refine .bind (printed ready kinds enough prints ends) ?_
  intro id later reaches shows
  refine .inspect (goesOn id later _ reaches ?_ shows)
  rw [State.kinds_length]
  exact Nat.lt_succ_self _

/-- Operators of a tightness that do not go on after an expression. -/
theorem PrintedBinary.gives (printed : PrintedBinary tree) {least bound : Nat}
    {state : State} (ready : state.Ready)
    (kinds : state.kinds = tree.kinds ++ rest)
    (enough : state.kinds.length ≤ bound) (prints : tree.Prints state.depth rest)
    (tight : least ≤ tree.loosest) (ends : tree.EndsBefore rest)
    (stopped : Stopped least rest) :
    Gives state (Grammar.binary (goalAt bound) least) (Shows tree rest) := by
  refine printed ready kinds enough prints tight ends _
    fun id later fuel reaches _ shows => ?_
  refine (gives_binaryRest_end reaches.ready ?_).imp ?_
  · rw [shows.2]
    exact stopped
  · rintro result last _ ⟨rfl, rfl⟩
    exact shows

theorem PrintedBinary.conditional (printed : PrintedBinary tree) {bound : Nat}
    {state : State} (ready : state.Ready)
    (kinds : state.kinds = tree.kinds ++ rest)
    (enough : state.kinds.length ≤ bound) (prints : tree.Prints state.depth rest)
    (positive : 0 < tree.loosest) (ends : tree.EndsBefore rest)
    (stopped : Stopped 1 rest)
    (other : rest.head? ≠ some (.symbol .question)) :
    Gives state (Grammar.conditional (goalAt bound)) (Shows tree rest) := by
  refine .bind (printed.gives ready kinds enough prints positive ends stopped) ?_
  intro id later reaches shows
  refine .leaveSymbol reaches.ready ?_ (.pure reaches.ready shows)
  rw [shows.2]
  exact other

/-- A conditional that is the target of no assignment. -/
theorem gives_assignment_of_conditional {sub : ExprGoal → Parse ExprId}
    {state : State}
    (gives : Gives state (Grammar.conditional sub) (Shows tree rest))
    (ended : Ended rest) :
    Gives state (assignment sub) (Shows tree rest) := by
  refine .bind gives fun id later reaches shows => ?_
  obtain ⟨mark, others, rfl, ends⟩ := ended.cons_eq
  refine .current reaches.ready shows.2 ?_
  have none : assignmentOperator? (.symbol mark) = none := by
    cases mark <;> first | rfl | cases ends
  rw [none]
  exact .pure reaches.ready shows

theorem PrintedBinary.assignment (printed : PrintedBinary tree)
    (positive : 0 < tree.loosest) : PrintedAssignment tree := by
  intro bound state rest ready kinds enough prints ended
  refine gives_assignment_of_conditional
    (printed.conditional ready kinds enough prints positive
      (endsBefore_of_ended ended) (stopped_of_ended ended) ?_) ended
  obtain ⟨mark, others, rfl, ends⟩ := ended.cons_eq
  intro same
  cases same
  cases ends

/-- How an expression is read back at the levels that it stands on. -/
structure Printed (tree : ExprTree) : Prop where
  postfix_ : postfixTightness ≤ tree.loosest → PrintedPostfix tree
  unary : unaryTightness ≤ tree.loosest → PrintedUnary tree
  binary : 0 < tree.loosest → PrintedBinary tree
  assignment : PrintedAssignment tree

theorem PrintedPostfix.printed (printed : PrintedPostfix tree)
    (tight : postfixTightness ≤ tree.loosest) : Printed tree where
  postfix_ _ := printed
  unary _ := printed.unary tight
  binary _ := (printed.unary tight).binary
  assignment := (printed.unary tight).binary.assignment
    (Nat.lt_of_lt_of_le (by decide) tight)

theorem PrintedUnary.printed (printed : PrintedUnary tree)
    (tight : tree.loosest = unaryTightness) : Printed tree where
  postfix_ tighter := by
    rw [tight] at tighter
    exact absurd tighter (by decide)
  unary _ := printed
  binary _ := printed.binary
  assignment := printed.binary.assignment (by rw [tight]; decide)

theorem PrintedBinary.printed (printed : PrintedBinary tree)
    (positive : 0 < tree.loosest) (loose : tree.loosest < unaryTightness) :
    Printed tree where
  postfix_ tight := absurd (Nat.lt_of_lt_of_le loose (Nat.le_of_lt tight))
    (Nat.lt_irrefl _)
  unary tight := absurd (Nat.lt_of_lt_of_le loose tight) (Nat.lt_irrefl _)
  binary _ := printed
  assignment := printed.assignment positive

theorem PrintedAssignment.printed (printed : PrintedAssignment tree)
    (loose : tree.loosest = 0) : Printed tree where
  postfix_ tight := by
    rw [loose] at tight
    exact absurd tight (by decide)
  unary tight := by
    rw [loose] at tight
    exact absurd tight (by decide)
  binary positive := by
    rw [loose] at positive
    exact absurd positive (by decide)
  assignment := printed

/-! ### Goals -/

theorem gives_nested {Result : Type} {parser : Parse Result}
    {holds : Result → State → Prop} {state : State}
    (room : state.depth < nestingLimit)
    (gives : Gives { state with depth := state.depth + 1 } parser holds)
    (blind : ∀ result later, holds result later →
      holds result { later with depth := state.depth }) :
    Gives state (nested parser) holds := by
  obtain ⟨result, later, given, reaches, known⟩ := gives
  have enters : nested parser state =
      (some result, { later with depth := state.depth }) := by
    simp only [nested, if_neg (Nat.not_le.mpr room), given]
  have ready := reaches.ready
  exact ⟨result, _, enters, ⟨⟨⟨ready.closed, ready.lexed, ready.finish⟩,
    reaches.extended, rfl, reaches.shorter⟩, reaches.silent⟩, blind _ _ known⟩

section

variable {bound : Nat} {state : State}

theorem PrintedAssignment.givesExpression (printed : PrintedAssignment tree)
    (ready : state.Ready) (kinds : state.kinds = tree.kinds ++ rest)
    (enough : state.kinds.length < bound)
    (prints : tree.Prints (state.depth + 1) rest) (ended : Ended rest) :
    Gives state (goalAt bound .expression) (Shows tree rest) := by
  obtain ⟨bound, rfl⟩ := Nat.exists_eq_succ_of_ne_zero
    (Nat.ne_zero_of_lt enough)
  have room := prints.shallow
  have within : State.Ready { state with depth := state.depth + 1 } :=
    ⟨ready.closed, ready.lexed, ready.finish⟩
  exact gives_nested (by omega) (printed within kinds
    (Nat.le_of_lt_succ enough) prints ended) fun _ _ known => known

theorem PrintedAssignment.givesAssignment (printed : PrintedAssignment tree)
    (ready : state.Ready) (kinds : state.kinds = tree.kinds ++ rest)
    (enough : state.kinds.length < bound)
    (prints : tree.Prints state.depth rest) (ended : Ended rest) :
    Gives state (goalAt bound .assignment) (Shows tree rest) := by
  obtain ⟨bound, rfl⟩ := Nat.exists_eq_succ_of_ne_zero
    (Nat.ne_zero_of_lt enough)
  exact printed ready kinds (Nat.le_of_lt_succ enough) prints ended

theorem PrintedBinary.givesBinary (printed : PrintedBinary tree) {least : Nat}
    (ready : state.Ready) (kinds : state.kinds = tree.kinds ++ rest)
    (enough : state.kinds.length < bound)
    (prints : tree.Prints state.depth rest) (tight : least ≤ tree.loosest)
    (ends : tree.EndsBefore rest) (stopped : Stopped least rest) :
    Gives state (goalAt bound (.binary least)) (Shows tree rest) := by
  obtain ⟨bound, rfl⟩ := Nat.exists_eq_succ_of_ne_zero
    (Nat.ne_zero_of_lt enough)
  exact printed.gives ready kinds (Nat.le_of_lt_succ enough) prints tight ends
    stopped

theorem PrintedUnary.givesUnary (printed : PrintedUnary tree)
    (ready : state.Ready) (kinds : state.kinds = tree.kinds ++ rest)
    (enough : state.kinds.length < bound)
    (prints : tree.Prints state.depth rest) (ends : tree.EndsBefore rest) :
    Gives state (goalAt bound .unary) (Shows tree rest) := by
  obtain ⟨bound, rfl⟩ := Nat.exists_eq_succ_of_ne_zero
    (Nat.ne_zero_of_lt enough)
  exact printed ready kinds (Nat.le_of_lt_succ enough) prints ends

end

/-! ### Lists -/

theorem kindsOfAll_eq_map (trees : List ExprTree) :
    kindsOfAll trees = trees.map ExprTree.kinds := by
  induction trees with
  | nil => rfl
  | cons tree rest inductionHypothesis =>
      rw [kindsOfAll, inductionHypothesis, List.map_cons]

theorem allGuarded_eq_map (trees : List ExprTree) :
    allGuarded trees = trees.map guarded := by
  induction trees with
  | nil => rfl
  | cons tree rest inductionHypothesis =>
      rw [allGuarded, inductionHypothesis, List.map_cons]

/-- Tokens that an expression may start with. -/
def startsExpression : TokenKind → Bool
  | .symbol .openParen | .symbol .openBracket | .symbol .openBrace
  | .symbol .minus | .symbol .plus | .symbol .bang | .symbol .tilde => true
  | .symbol _ | .endOfFile => false
  | _ => true

theorem startsExpression_ofWord (word : String) :
    startsExpression (.ofWord word) = true := by
  rcases ofWord_cases word with ⟨_, _, _, reserved⟩ | ⟨_, plain⟩
  · rw [reserved]
    rfl
  · rw [plain]
    rfl

theorem starts_kinds (tree : ExprTree) :
    ∀ kind ∈ tree.kinds.head?, startsExpression kind = true := by
  cases tree with
  | call callee types arguments =>
      rw [ExprTree.kinds, List.append_assoc, List.append_assoc,
        head?_kinds_append]
      exact starts_kinds callee
  | member target property =>
      rw [ExprTree.kinds, head?_kinds_append]
      exact starts_kinds target
  | index target position =>
      rw [ExprTree.kinds, List.append_assoc, head?_kinds_append]
      exact starts_kinds target
  | binary operator left right =>
      rw [ExprTree.kinds, head?_kinds_append]
      exact starts_kinds left
  | assign operator target value =>
      rw [ExprTree.kinds, head?_kinds_append]
      exact starts_kinds target
  | conditional condition whenTrue whenFalse =>
      rw [ExprTree.kinds, List.append_assoc, head?_kinds_append]
      exact starts_kinds condition
  | cast operand type =>
      rw [ExprTree.kinds, head?_kinds_append]
      exact starts_kinds operand
  | identifier name =>
      intro kind head
      cases head
      exact startsExpression_ofWord name
  | bool value => cases value <;> (intro kind head; cases head; rfl)
  | unary operator operand =>
      intro kind head
      rw [ExprTree.kinds] at head
      cases head
      cases operator <;> rfl
  | _ =>
      intro kind head
      cases head
      rfl

/-- No expression starts like the end of a list or of a file. -/
theorem opens_kinds (tree : ExprTree) (closing : Symbol)
    (ends : endsExpression (.symbol closing) = true) :
    ∃ kind ∈ tree.kinds.head?, kind ≠ .symbol closing ∧ kind ≠ .endOfFile := by
  have head := List.head?_eq_some_head tree.kinds_ne_nil
  have starts := starts_kinds tree _ head
  refine ⟨_, head, fun same => ?_, fun same => ?_⟩
  · have other : startsExpression (.symbol closing) = false := by
      cases closing <;> first | rfl | cases ends
    rw [same, other] at starts
    cases starts
  · rw [same] at starts
    cases starts

/-- Expressions between commas. -/
structure AllPrint (trees : List ExprTree) (depth : Nat)
    (after : List TokenKind) : Prop where
  grammatical : AllGrammatical trees
  printable : arePrintable trees = true
  shallow : printedNestingOfAll trees + depth ≤ nestingLimit
  unmistaken : AllUnmistaken trees after

/-- An expression among others that stand between commas. -/
def exprSpec (item : Parse ExprId) (depth limit : Nat) :
    PartSpec ExprTree ExprId ExprTree :=
  ⟨item, ExprTree.kinds, guarded, depth, limit⟩

theorem AllPrint.readsAll {item : Parse ExprId} {depth limit : Nat}
    {trees : List ExprTree} {closing : Symbol}
    (ends : endsExpression (.symbol closing) = true)
    (reads : ∀ tree ∈ trees, ∀ ⦃state : State⦄ ⦃rest : List TokenKind⦄,
      state.Ready → state.depth = depth → state.kinds = tree.kinds ++ rest →
      state.kinds.length < limit → tree.Prints (depth + 1) rest → Ended rest →
        Gives state item (Shows tree rest))
    (prints : AllPrint trees depth (.symbol closing :: rest)) :
    (exprSpec item depth limit).ReadsAll trees (.symbol closing :: rest) := by
  induction trees with
  | nil => trivial
  | cons tree others inductionHypothesis =>
      obtain ⟨first, later⟩ := List.forall_mem_cons.mp reads
      obtain ⟨grammatical, printable, shallow, unmistaken⟩ := prints
      simp only [arePrintable, Bool.and_eq_true] at printable
      simp only [printedNestingOfAll] at shallow
      refine ⟨fun state ready same kinds enough => ?_, inductionHypothesis later
        ⟨grammatical.2, printable.2, by omega, unmistaken.2⟩⟩
      refine first ready same kinds enough ⟨grammatical.1, printable.1, by omega,
        ?_⟩ ?_
      · simpa [exprSpec, kindsOfAll_eq_map] using unmistaken.1
      · cases others with
        | nil => exact .of_head rfl ends
        | cons next others => exact .of_head rfl rfl

theorem gives_exprList {item : Parse ExprId} {depth limit : Nat}
    {trees : List ExprTree} {closing : Symbol}
    (ends : endsExpression (.symbol closing) = true)
    (notComma : closing ≠ .comma)
    (reads : ∀ tree ∈ trees, ∀ ⦃state : State⦄ ⦃rest : List TokenKind⦄,
      state.Ready → state.depth = depth → state.kinds = tree.kinds ++ rest →
      state.kinds.length < limit → tree.Prints (depth + 1) rest → Ended rest →
        Gives state item (Shows tree rest))
    {state : State} (ready : state.Ready) (same : state.depth = depth)
    (kinds : state.kinds =
      joinedKinds (kindsOfAll trees) ++ .symbol closing :: rest)
    (enough : state.kinds.length < limit)
    (prints : AllPrint trees depth (.symbol closing :: rest)) :
    Gives state (listUntil closing item) fun ids later =>
      later.arena.Depicts ids (allGuarded trees) ∧ later.kinds = rest := by
  rw [kindsOfAll_eq_map] at kinds
  rw [allGuarded_eq_map]
  exact (exprSpec item depth limit).gives_listUntil notComma
    (fun tree _ => opens_kinds tree _ ends) (prints.readsAll ends reads) ready same
    kinds enough

/-! ### Primary expressions -/

/-- What a primary expression is read back as, before it is stored. -/
def ShowsNode (tree : ExprTree) (rest : List TokenKind) (node : Expr)
    (later : State) : Prop :=
  later.arena.Depicts node tree.guarded ∧ later.kinds = rest

/-- An expression that is read back as a node of its own. -/
theorem printedPostfix_of_node
    (noOperator : ∀ kind ∈ tree.kinds.head?, unaryOperator? kind = none)
    (reads : ∀ ⦃bound : Nat⦄ ⦃state : State⦄ ⦃rest : List TokenKind⦄,
      state.Ready → state.kinds = tree.kinds ++ rest →
      state.kinds.length ≤ bound → tree.Prints state.depth rest →
        Gives state (primaryNode (goalAt bound)) (ShowsNode tree rest)) :
    PrintedPostfix tree := by
  intro bound state rest ready kinds enough prints holds goesOn
  have none : unaryOperator? state.current.kind = none := by
    rw [State.current_eq ready, kinds, head?_kinds_append,
      List.head?_eq_some_head tree.kinds_ne_nil]
    exact noOperator _ (List.head?_eq_some_head tree.kinds_ne_nil)
  have primary : Gives state (primary (goalAt bound)) (Shows tree rest) := by
    refine .inspect (.bind (reads ready kinds enough prints) ?_)
    rintro node later reaches ⟨depicts, onward⟩
    refine .spanFrom fun span => (Gives.addExpr reaches.ready depicts).imp ?_
    rintro id last _ ⟨shown, same⟩
    exact ⟨shown, same.trans onward⟩
  refine .inspect ?_
  rw [none]
  refine .bind primary fun id later reaches shows => .inspect ?_
  refine goesOn id later _ reaches ?_ shows
  rw [State.kinds_length]
  exact Nat.lt_succ_self _

/-- An expression that is a single token. -/
theorem gives_leaf {kind : TokenKind} {node : Expr} {state : State}
    (ready : state.Ready) (kinds : state.kinds = kind :: rest)
    (leaf : node.children = [])
    (shown : ∀ view, node.treeWith view = tree.guarded) :
    Gives state (do advance; return node) (ShowsNode tree rest) := by
  refine .advance ready kinds fun later reaches onward => ?_
  have depicts := depicts_leaf leaf later.arena
  rw [shown] at depicts
  exact .pure reaches.ready ⟨depicts, onward⟩

theorem printedPostfix_null : PrintedPostfix .null :=
  printedPostfix_of_node (by rintro kind ⟨⟩; rfl)
    fun _ _ _ ready kinds _ _ =>
      .current ready kinds (gives_leaf ready kinds rfl fun _ => rfl)

theorem printedPostfix_this : PrintedPostfix .this :=
  printedPostfix_of_node (by rintro kind ⟨⟩; rfl)
    fun _ _ _ ready kinds _ _ =>
      .current ready kinds (gives_leaf ready kinds rfl fun _ => rfl)

theorem printedPostfix_bool (value : Bool) : PrintedPostfix (.bool value) := by
  cases value with
  | true =>
      exact printedPostfix_of_node (by rintro kind ⟨⟩; rfl)
        fun _ _ _ ready kinds _ _ =>
          .current ready kinds (gives_leaf ready kinds rfl fun _ => rfl)
  | false =>
      exact printedPostfix_of_node (by rintro kind ⟨⟩; rfl)
        fun _ _ _ ready kinds _ _ =>
          .current ready kinds (gives_leaf ready kinds rfl fun _ => rfl)

theorem printedPostfix_integer (value : UInt64) (spelling : String) :
    PrintedPostfix (.integer value spelling) :=
  printedPostfix_of_node (by rintro kind ⟨⟩; rfl)
    fun _ _ _ ready kinds _ _ =>
      .current ready kinds (gives_leaf ready kinds rfl fun _ => rfl)

theorem printedPostfix_float (value : Float) (spelling : String) :
    PrintedPostfix (.float value spelling) :=
  printedPostfix_of_node (by rintro kind ⟨⟩; rfl)
    fun _ _ _ ready kinds _ _ =>
      .current ready kinds (gives_leaf ready kinds rfl fun _ => rfl)

theorem printedPostfix_string (content : String) :
    PrintedPostfix (.string content) :=
  printedPostfix_of_node (by rintro kind ⟨⟩; rfl)
    fun _ _ _ ready kinds _ _ =>
      .current ready kinds (gives_leaf ready kinds rfl fun _ => rfl)

theorem printedPostfix_identifier (name : String) :
    PrintedPostfix (.identifier name) := by
  rcases ofWord_cases name with ⟨word, found, text, reserved⟩ | ⟨_, plain⟩
  · have single : (identifier name).kinds = [.keyword word] := by
      rw [ExprTree.kinds, reserved]
    refine printedPostfix_of_node ?_ fun bound state rest ready kinds _ prints => ?_
    · rw [single]
      rintro kind ⟨⟩
      rfl
    rw [single] at kinds
    have named : isName name = true := prints.printable
    have contextual : word.isContextual = true := by
      simpa [isName, found] using (Bool.and_eq_true_iff.mp named).2
    refine .current ready kinds ?_
    have leaf : Gives state (do advance; return Expr.identifier word.text)
        (ShowsNode (identifier name) rest) :=
      gives_leaf ready kinds rfl fun _ => by rw [text]; rfl
    cases word <;> first | exact leaf | cases contextual
  · have single : (identifier name).kinds = [.identifier name] := by
      rw [ExprTree.kinds, plain]
    refine printedPostfix_of_node ?_ fun bound state rest ready kinds _ _ => ?_
    · rw [single]
      rintro kind ⟨⟩
      rfl
    rw [single] at kinds
    exact .current ready kinds (gives_leaf ready kinds rfl fun _ => rfl)

theorem depicts_paren {arena : Arena} {inner : ExprId}
    (depicts : arena.Depicts inner tree) :
    arena.Depicts (Expr.paren inner) (.paren tree) where
  stored := depicts.stored
  shown := congrArg ExprTree.paren depicts.shown

theorem depicts_array {arena : Arena} {elements : List ExprId}
    {trees : List ExprTree} (depicts : arena.Depicts elements trees) :
    arena.Depicts (Expr.literal (.array elements)) (.array trees) where
  stored point member :=
    depicts.stored point
      (by simpa [Depicted.points, Expr.children, eq_comm] using member)
  shown := congrArg ExprTree.array depicts.shown

theorem depicts_object {arena : Arena} {entries : List (Name × ExprId)}
    {trees : List (String × ExprTree)} (depicts : arena.Depicts entries trees) :
    arena.Depicts (Expr.literal (.object entries)) (.object trees) where
  stored point member :=
    depicts.stored point
      (by simpa [Depicted.points, Expr.children, eq_comm] using member)
  shown := congrArg ExprTree.object depicts.shown

theorem depicts_new {arena : Arena} {values : List ExprId}
    {trees : List ExprTree} (depicts : arena.Depicts values trees)
    (type : TypeExpr) :
    arena.Depicts (Expr.new type values) (.new type.shape trees) where
  stored point member :=
    depicts.stored point
      (by simpa [Depicted.points, Expr.children, eq_comm] using member)
  shown := congrArg (ExprTree.new type.shape) depicts.shown

theorem PrintedAssignment.paren (printed : PrintedAssignment tree) :
    PrintedPostfix (.paren tree) := by
  refine printedPostfix_of_node (by rintro kind ⟨⟩; rfl) ?_
  intro bound state rest ready kinds enough prints
  have inside : state.kinds = .symbol .openParen ::
      (tree.kinds ++ .symbol .closeParen :: rest) := by
    rw [kinds]
    simp [ExprTree.kinds]
  refine .current ready inside (.advance ready inside fun later reaches onward => ?_)
  have fewer := fewer_tail inside enough onward
  have shallow := prints.shallow
  rw [printedNesting_paren] at shallow
  refine .bind (printed.givesExpression reaches.ready onward fewer
    ⟨prints.grammatical, prints.printable, ?_, prints.unmistaken⟩
    (.of_head rfl rfl)) ?_
  · rw [reaches.depth]
    omega
  rintro id second further ⟨depicts, remaining⟩
  refine .bind (.expectSymbol further.ready remaining) fun _ last final left => ?_
  exact .pure final.ready ⟨depicts_paren
    (depicts.extends final.extended further.ready.closed), left⟩

/-- How expressions between brackets are read back. -/
theorem gives_bracketed {bound depth : Nat} {trees : List ExprTree}
    {closing : Symbol} (ends : endsExpression (.symbol closing) = true)
    (notComma : closing ≠ .comma) (printed : ∀ tree ∈ trees, Printed tree)
    {state : State} (ready : state.Ready) (same : state.depth = depth)
    (kinds : state.kinds =
      joinedKinds (kindsOfAll trees) ++ .symbol closing :: rest)
    (enough : state.kinds.length < bound)
    (prints : AllPrint trees depth (.symbol closing :: rest)) :
    Gives state (listUntil closing (goalAt bound .expression)) fun ids later =>
      later.arena.Depicts ids (allGuarded trees) ∧ later.kinds = rest :=
  gives_exprList ends notComma
    (fun tree member _ _ ready same kinds enough prints ended =>
      (printed tree member).assignment.givesExpression ready kinds enough
        (same ▸ prints) ended) ready same kinds enough prints

theorem printedPostfix_array {elements : List ExprTree}
    (printed : ∀ tree ∈ elements, Printed tree) :
    PrintedPostfix (.array elements) := by
  refine printedPostfix_of_node (by rintro kind ⟨⟩; rfl) ?_
  intro bound state rest ready kinds enough prints
  have inside : state.kinds = .symbol .openBracket ::
      (joinedKinds (kindsOfAll elements) ++ .symbol .closeBracket :: rest) := by
    rw [kinds]
    simp [ExprTree.kinds]
  refine .current ready inside (.advance ready inside fun later reaches onward => ?_)
  have fewer := fewer_tail inside enough onward
  refine .bind (gives_bracketed rfl (by decide) printed reaches.ready
    reaches.depth onward fewer ⟨prints.grammatical, prints.printable, prints.shallow,
      prints.unmistaken⟩) ?_
  rintro ids second further ⟨depicts, remaining⟩
  exact .pure further.ready ⟨depicts_array depicts, remaining⟩

theorem printedPostfix_new {type : TypeShape} {arguments : List ExprTree}
    (printed : ∀ tree ∈ arguments, Printed tree) :
    PrintedPostfix (.new type arguments) := by
  refine printedPostfix_of_node (by rintro kind ⟨⟩; rfl) ?_
  intro bound state rest ready kinds enough prints
  have inside : state.kinds = .keyword .newWord :: (type.kinds ++
      .symbol .openParen :: (joinedKinds (kindsOfAll arguments) ++
        .symbol .closeParen :: rest)) := by
    rw [kinds]
    simp [ExprTree.kinds]
  obtain ⟨typeGrammatical, allGrammatical⟩ := prints.grammatical
  obtain ⟨typePrintable, allPrintable⟩ := Bool.and_eq_true_iff.mp prints.printable
  refine .current ready inside (.advance ready inside fun later reaches onward => ?_)
  refine .bind (gives_typeExpr typeGrammatical typePrintable reaches.ready onward
    ⟨by simp, by simp, by simp, fun _ => id⟩) ?_
  rintro result second further ⟨rfl, behind⟩
  refine .eatSymbol further.ready behind fun third next values => ?_
  have fewer : third.kinds.length < bound := by
    rw [inside] at enough
    rw [values]
    simp only [List.length_cons, List.length_append] at enough ⊢
    omega
  have all := reaches.trans (further.trans next)
  refine .bind (gives_bracketed rfl (by decide) printed next.ready all.depth values
    fewer ⟨allGrammatical, allPrintable, prints.shallow, prints.unmistaken⟩) ?_
  rintro ids last final ⟨depicts, remaining⟩
  exact .continued rfl final.ready.reaches
    (.pure final.ready ⟨depicts_new depicts result, remaining⟩)

/-! ### Objects -/

theorem kindsOfEntries_eq_map (entries : List (String × ExprTree)) :
    kindsOfEntries entries = entries.map fun entry =>
      .ofWord entry.1 :: .symbol .colon :: entry.2.kinds := by
  induction entries with
  | nil => rfl
  | cons entry rest inductionHypothesis =>
      rw [kindsOfEntries, inductionHypothesis, List.map_cons]

theorem entriesGuarded_eq_map (entries : List (String × ExprTree)) :
    entriesGuarded entries =
      entries.map fun entry => (entry.1, entry.2.guarded) := by
  induction entries with
  | nil => rfl
  | cons entry rest inductionHypothesis =>
      rw [entriesGuarded, inductionHypothesis, List.map_cons]

/-- An entry of an object, which is read back with its key. -/
def entrySpec (bound depth : Nat) :
    PartSpec (String × ExprTree) (Name × ExprId) (String × ExprTree) where
  item := objectEntry (goalAt bound)
  kinds entry := .ofWord entry.1 :: .symbol .colon :: entry.2.kinds
  tree entry := (entry.1, entry.2.guarded)
  depth := depth
  limit := bound

theorem gives_objectEntry {bound : Nat} {key : String}
    (printed : Printed tree) {state : State} (ready : state.Ready)
    (kinds : state.kinds =
      .ofWord key :: .symbol .colon :: (tree.kinds ++ rest))
    (enough : state.kinds.length < bound)
    (prints : tree.Prints (state.depth + 1) rest) (ended : Ended rest) :
    Gives state (objectEntry (goalAt bound)) fun entry later =>
      later.arena.Depicts entry (key, tree.guarded) ∧ later.kinds = rest := by
  have value (name : Name) {later : State} (reaches : state.Reaches later)
      (same : name.text = key)
      (onward : later.kinds = .symbol .colon :: (tree.kinds ++ rest)) :
      Gives later (do
        if ← eatSymbol .colon then
          let value ← goalAt bound .expression
          return (name, value)
        else
          let value ← addExpr (.identifier name.text) name.span
          return (name, value)) fun entry last =>
        last.arena.Depicts entry (key, tree.guarded) ∧ last.kinds = rest := by
    refine .eatSymbol reaches.ready onward fun second further behind => ?_
    have fewer : second.kinds.length < bound := by
      rw [kinds] at enough
      rw [behind]
      simp only [List.length_cons] at enough
      omega
    have all := reaches.trans further
    refine .bind (printed.assignment.givesExpression further.ready behind fewer
      (all.depth ▸ prints) ended) ?_
    rintro id last final ⟨depicts, remaining⟩
    refine .pure final.ready ⟨⟨depicts.stored, ?_⟩, remaining⟩
    rw [← same]
    exact congrArg (name.text, ·) depicts.shown
  rcases ofWord_cases key with ⟨word, _, _, reserved⟩ | ⟨_, plain⟩
  · refine .inspect ?_
    rw [ready.current_kind kinds, reserved]
    refine .bind (gives_expectPropertyName ready kinds) ?_
    rintro name later reaches ⟨same, onward⟩
    exact value name reaches same onward
  · refine .inspect ?_
    rw [ready.current_kind kinds, plain]
    refine .bind (gives_expectPropertyName ready kinds) ?_
    rintro name later reaches ⟨same, onward⟩
    exact value name reaches same onward

/-- Entries between commas. -/
structure EntriesPrint (entries : List (String × ExprTree)) (depth : Nat)
    (after : List TokenKind) : Prop where
  grammatical : EntriesGrammatical entries
  printable : entriesPrintable entries = true
  shallow : printedNestingOfEntries entries + depth ≤ nestingLimit
  unmistaken : EntriesUnmistaken entries after

theorem EntriesPrint.readsAll (bound : Nat) {depth : Nat}
    {entries : List (String × ExprTree)}
    (printed : ∀ entry ∈ entries, Printed entry.2)
    (prints : EntriesPrint entries depth (.symbol .closeBrace :: rest)) :
    (entrySpec bound depth).ReadsAll entries (.symbol .closeBrace :: rest) := by
  induction entries with
  | nil => trivial
  | cons entry others inductionHypothesis =>
      obtain ⟨first, later⟩ := List.forall_mem_cons.mp printed
      obtain ⟨key, value⟩ := entry
      obtain ⟨grammatical, printable, shallow, unmistaken⟩ := prints
      simp only [entriesPrintable, Bool.and_eq_true] at printable
      simp only [printedNestingOfEntries] at shallow
      refine ⟨fun state ready same kinds enough => ?_, inductionHypothesis later
        ⟨grammatical.2, printable.2, by omega, unmistaken.2⟩⟩
      refine gives_objectEntry first ready kinds enough
        ⟨grammatical.1, printable.1.2, ?_, ?_⟩ ?_
      · rw [same]
        change value.printedNesting + (depth + 1) ≤ nestingLimit
        omega
      · simpa [entrySpec, kindsOfEntries_eq_map] using unmistaken.1
      · cases others with
        | nil => exact .of_head rfl rfl
        | cons next others => exact .of_head rfl rfl

theorem printedPostfix_object {entries : List (String × ExprTree)}
    (printed : ∀ entry ∈ entries, Printed entry.2) :
    PrintedPostfix (.object entries) := by
  refine printedPostfix_of_node (by rintro kind ⟨⟩; rfl) ?_
  intro bound state rest ready kinds enough prints
  have inside : state.kinds = .symbol .openBrace ::
      (joinedKinds (kindsOfEntries entries) ++ .symbol .closeBrace :: rest) := by
    rw [kinds]
    simp [ExprTree.kinds]
  refine .current ready inside (.advance ready inside fun later reaches onward => ?_)
  have fewer := fewer_tail inside enough onward
  have reads := EntriesPrint.readsAll bound printed ⟨prints.grammatical,
    prints.printable, prints.shallow, prints.unmistaken⟩
  rw [kindsOfEntries_eq_map] at onward
  refine .bind ((entrySpec bound state.depth).gives_listUntil (by decide) ?_ reads
    reaches.ready reaches.depth onward fewer) ?_
  · intro entry _
    exact ⟨_, rfl, ofWord_ne_symbol _ _, ofWord_ne_endOfFile _⟩
  rintro nodes second further ⟨depicts, remaining⟩
  refine .pure further.ready ⟨?_, remaining⟩
  rw [guarded, entriesGuarded_eq_map]
  exact depicts_object depicts

/-! ### Calls and accesses -/

theorem PrintedPostfix.member (printed : PrintedPostfix tree)
    {property : String} : PrintedPostfix (.member tree property) := by
  intro bound state rest ready kinds enough prints holds goesOn
  have inside : state.kinds = tree.kinds ++
      .symbol .dot :: .ofWord property :: rest := by
    rw [kinds]
    simp [ExprTree.kinds]
  obtain ⟨⟨tight, grammatical, word⟩, printable, shallow, unmistaken⟩ := prints
  refine printed ready inside enough ⟨grammatical, printable, shallow, unmistaken⟩
    _ fun id later fuel reaches more shows => ?_
  obtain ⟨depicts, onward⟩ := shows
  refine .current reaches.ready onward ?_
  refine .advance reaches.ready onward fun second further behind => ?_
  refine .bind (gives_expectPropertyName further.ready behind) ?_
  rintro name third next ⟨rfl, remaining⟩
  have target := depicts.extends (further.trans next).extended
    reaches.ready.closed
  refine .inspect (.bind (.addExpr next.ready (depicts_member target name)) ?_)
  rintro whole last final ⟨shown, same⟩
  have fewer : last.kinds.length < fuel := by
    rw [onward, List.length_cons, List.length_cons] at more
    rw [same, remaining]
    omega
  exact ComesTo.goOn goesOn
    (reaches.trans (further.trans (next.trans final))) fewer
    ⟨shown, same.trans remaining⟩

theorem PrintedPostfix.index (printed : PrintedPostfix tree)
    {position : ExprTree} (inner : PrintedAssignment position) :
    PrintedPostfix (.index tree position) := by
  intro bound state rest ready kinds enough prints holds goesOn
  have inside : state.kinds = tree.kinds ++ .symbol .openBracket ::
      (position.kinds ++ .symbol .closeBracket :: rest) := by
    rw [kinds]
    simp [ExprTree.kinds]
  obtain ⟨⟨tight, grammatical, innerGrammatical⟩, printable, shallow, unmistaken,
    innerUnmistaken⟩ := prints
  simp only [isPrintable, Bool.and_eq_true] at printable
  simp only [printedNesting] at shallow
  have within : tree.Prints state.depth (.symbol .openBracket ::
      (position.kinds ++ .symbol .closeBracket :: rest)) :=
    ⟨grammatical, printable.1, by omega, by simpa using unmistaken⟩
  refine printed ready inside enough within _
    fun id later fuel reaches more shows => ?_
  obtain ⟨depicts, onward⟩ := shows
  refine .current reaches.ready onward ?_
  refine .advance reaches.ready onward fun second further behind => ?_
  have depth : second.depth = state.depth := (reaches.trans further).depth
  have room := fewer_behind inside enough behind
  refine .bind (inner.givesExpression further.ready behind room
    ⟨innerGrammatical, printable.2, by omega, innerUnmistaken⟩
    (.of_head rfl rfl)) ?_
  rintro value third next ⟨valueDepicts, closing⟩
  refine .bind (.expectSymbol next.ready closing) fun _ fourth onwards remaining => ?_
  have target := depicts.extends (further.trans (next.trans onwards)).extended
    reaches.ready.closed
  have stored := valueDepicts.extends onwards.extended next.ready.closed
  refine .inspect (.spanFrom fun span =>
    .bind (.addExpr onwards.ready (depicts_index target stored)) ?_)
  rintro whole last final ⟨shown, same⟩
  have fewer : last.kinds.length < fuel := by
    rw [onward, List.length_cons, List.length_append] at more
    rw [same, remaining]
    simp only [List.length_cons] at more
    omega
  exact ComesTo.goOn goesOn (reaches.trans (further.trans
    (next.trans (onwards.trans final)))) fewer ⟨shown, same.trans remaining⟩

/-- The arguments of a call, which is then stored. -/
theorem gives_callEnd {bound fuel : Nat} {callee : ExprId}
    {arguments : List ExprTree} {types : List TypeExpr}
    {holds : ExprId → State → Prop}
    (printed : ∀ argument ∈ arguments, Printed argument) {state : State}
    (ready : state.Ready) (kinds : state.kinds =
      joinedKinds (kindsOfAll arguments) ++ .symbol .closeParen :: rest)
    (enough : state.kinds.length < bound)
    (depicts : state.arena.Depicts callee tree)
    (prints : AllPrint arguments state.depth (.symbol .closeParen :: rest))
    (goesOn : ∀ whole last, state.Reaches last → last.kinds = rest →
      last.arena.Depicts whole (.call tree (types.map TypeExpr.shape)
        (allGuarded arguments)) →
        Gives last (accesses (goalAt bound) fuel whole) holds) :
    Gives state (do
      let values ← Grammar.arguments (goalAt bound)
      let span ← spanFrom (← spanOf callee)
      accesses (goalAt bound) fuel (← addExpr (.call callee types values) span))
      holds := by
  refine .bind (gives_bracketed rfl (by decide) printed ready rfl kinds enough
    prints) ?_
  rintro values later reaches ⟨valuesDepict, onward⟩
  have target := depicts.extends reaches.extended ready.closed
  refine .inspect (.spanFrom fun span => .bind (.addExpr reaches.ready
    (depicts_call target valuesDepict types)) ?_)
  rintro whole last final ⟨shown, same⟩
  exact goesOn whole last (reaches.trans final) (same.trans onward) shown

theorem PrintedPostfix.call (printed : PrintedPostfix tree)
    {arguments : List ExprTree}
    (printedArguments : ∀ argument ∈ arguments, Printed argument) :
    PrintedPostfix (.call tree [] arguments) := by
  intro bound state rest ready kinds enough prints holds goesOn
  have inside : state.kinds = tree.kinds ++ .symbol .openParen ::
      (joinedKinds (kindsOfAll arguments) ++ .symbol .closeParen :: rest) := by
    rw [kinds]
    simp [ExprTree.kinds, TypeShape.angled]
  obtain ⟨⟨tight, grammatical, _, _, allGrammatical⟩, printable, shallow,
    unmistaken, allUnmistaken⟩ := prints
  obtain ⟨calleePrintable, -, allPrintable⟩ := isPrintable_call_iff.mp printable
  rw [printedNesting_call] at shallow
  have within : tree.Prints state.depth (.symbol .openParen ::
      (joinedKinds (kindsOfAll arguments) ++ .symbol .closeParen :: rest)) :=
    ⟨grammatical, calleePrintable, by omega,
      by simpa [TypeShape.angled] using unmistaken⟩
  refine printed ready inside enough within _
    fun id later fuel reaches more shows => ?_
  obtain ⟨depicts, onward⟩ := shows
  refine .current reaches.ready onward ?_
  refine .advance reaches.ready onward fun second further behind => ?_
  have depth : second.depth = state.depth := (reaches.trans further).depth
  have room := fewer_behind inside enough behind
  refine gives_callEnd printedArguments further.ready behind room
    (depicts.extends further.extended reaches.ready.closed)
    ⟨allGrammatical, allPrintable, by omega, allUnmistaken⟩ ?_
  intro whole last final remaining shown
  have fewer : last.kinds.length < fuel := by
    rw [onward, List.length_cons, List.length_append] at more
    rw [remaining]
    simp only [List.length_cons] at more
    omega
  exact ComesTo.goOn goesOn (reaches.trans (further.trans final)) fewer
    ⟨shown, remaining⟩

theorem PrintedPostfix.typedCall (printed : PrintedPostfix tree)
    {types : List TypeShape} (some_type : types ≠ [])
    {arguments : List ExprTree}
    (printedArguments : ∀ argument ∈ arguments, Printed argument) :
    PrintedPostfix (.call tree types arguments) := by
  intro bound state rest ready kinds enough prints holds goesOn
  have inside : state.kinds = tree.kinds ++ .symbol .less ::
      (TypeShape.argumentKinds types 0 ++ .symbol .openParen ::
        (joinedKinds (kindsOfAll arguments) ++ .symbol .closeParen :: rest)) := by
    rw [kinds]
    simp [ExprTree.kinds, TypeShape.angled]
  obtain ⟨⟨tight, grammatical, typesGrammatical, bare, allGrammatical⟩, printable,
    shallow, unmistaken, allUnmistaken⟩ := prints
  obtain ⟨calleePrintable, typesPrintable, allPrintable⟩ :=
    isPrintable_call_iff.mp printable
  rw [printedNesting_call] at shallow
  have within : tree.Prints state.depth (.symbol .less ::
      (TypeShape.argumentKinds types 0 ++ .symbol .openParen ::
        (joinedKinds (kindsOfAll arguments) ++ .symbol .closeParen :: rest))) :=
    ⟨grammatical, calleePrintable, by omega,
      by simpa [TypeShape.angled] using unmistaken⟩
  refine printed ready inside enough within _
    fun id later fuel reaches more shows => ?_
  obtain ⟨depicts, onward⟩ := shows
  refine .current reaches.ready onward (.inspect (.isTrue ?_ ?_))
  · rw [closesBeforeCall_eq, reaches.ready.current_kind onward]
    change (_ && closes 0 later.kinds) = true
    rw [onward]
    simp [closes, angleChange?, TypeShape.closes_argumentKinds types bare 0,
      TypeShape.angles, TokenKind.isSymbol]
  refine .advance reaches.ready onward fun second further behind => ?_
  refine .bind (gives_typeArguments some_type typesGrammatical typesPrintable
    further.ready behind) ?_
  rintro shapes third next ⟨rfl, left, closing, closed⟩
  refine .bind (gives_expectClosingAngle next.ready closing closed) ?_
  rintro _ fourth after ⟨left, closing, opened⟩
  rw [closing.eq_nil, List.nil_append] at opened
  refine .bind (.expectSymbol after.ready opened) fun _ fifth enters values => ?_
  have all := reaches.trans (further.trans (next.trans (after.trans enters)))
  have target := depicts.extends
    (further.trans (next.trans (after.trans enters))).extended
    reaches.ready.closed
  have depth : fifth.depth = state.depth := all.depth
  have room : fifth.kinds.length < bound := by
    rw [inside] at enough
    rw [values]
    simp only [List.length_append, List.length_cons] at enough ⊢
    omega
  refine gives_callEnd printedArguments enters.ready values room target
    ⟨allGrammatical, allPrintable, by omega, allUnmistaken⟩ ?_
  intro whole last final remaining shown
  have fewer : last.kinds.length < fuel := by
    rw [onward] at more
    rw [remaining]
    simp only [List.length_cons, List.length_append] at more
    omega
  exact ComesTo.goOn goesOn (all.trans final) fewer ⟨shown, remaining⟩

/-! ### Operators -/

/-- An operand of a prefix operator that starts with none. -/
theorem PrintedUnary.unary (printed : PrintedUnary tree)
    {operator : UnaryOperator} (bare : tree.isUnary = false) :
    PrintedUnary (.unary operator tree) := by
  intro bound state rest ready kinds enough prints ends
  have inside : state.kinds = .symbol operator.symbol ::
      (tree.kinds ++ rest) := by
    rw [kinds]
    simp [ExprTree.kinds, bare]
  obtain ⟨⟨tight, grammatical⟩, printable, shallow, unmistaken⟩ := prints
  simp only [printedNesting_unary, bare, Bool.false_eq_true, if_false] at shallow
  rw [Unmistaken, bare] at unmistaken
  refine .current ready inside ?_
  rw [unaryOperator?_symbol]
  refine .inspect (.advance ready inside fun later reaches onward => ?_)
  have fewer := fewer_tail inside enough onward
  refine .bind (printed.givesUnary reaches.ready onward fewer
    ⟨grammatical, printable, reaches.depth ▸ shallow, unmistaken⟩
    ⟨ends.typed, ends.plain, fun _ _ _ _ => admits_of_tight tight _⟩) ?_
  rintro operand second further ⟨depicts, remaining⟩
  refine .inspect ((Gives.addExpr further.ready
    (depicts_unary depicts operator)).imp ?_)
  rintro whole last _ ⟨shown, same⟩
  refine ⟨?_, same.trans remaining⟩
  simpa [guarded, bare] using shown

/-- An operand of a prefix operator that starts with another one stands in
parentheses. -/
theorem PrintedAssignment.unary (printed : PrintedAssignment tree)
    {operator : UnaryOperator} (isUnary : tree.isUnary = true) :
    PrintedUnary (.unary operator tree) := by
  have closed : (ExprTree.paren tree).isUnary = false := rfl
  have inner : PrintedUnary (.paren tree) := printed.paren.unary (Nat.le_refl _)
  intro bound state rest ready kinds enough prints ends
  obtain ⟨⟨tight, grammatical⟩, printable, shallow, unmistaken⟩ := prints
  have untyped := endType?_of_tight tree tight grammatical
  have same : (ExprTree.unary operator tree).kinds =
      (ExprTree.unary operator (.paren tree)).kinds := by
    simp [ExprTree.kinds, isUnary, closed]
  rw [same] at kinds
  simp only [printedNesting_unary, isUnary, if_true] at shallow
  rw [Unmistaken, isUnary] at unmistaken
  have shows := inner.unary closed ready kinds enough
    ⟨⟨Nat.le_succ _, grammatical⟩, printable, ?_, ?_⟩
    ⟨by simp [endType?], fun _ => ends.plain untyped, fun _ _ _ _ => trivial⟩
  · exact shows.imp fun id later _ known => by
      simpa [Shows, guarded, isUnary, closed] using known
  · simpa [printedNesting_unary, closed] using shallow
  · rw [Unmistaken, closed]
    exact unmistaken

/-- What stands behind the left operand of an operator ends it. -/
theorem endsBefore_operator {operator : BinaryOperator} {left right : ExprTree}
    {depth : Nat} (prints : (ExprTree.binary operator left right).Prints depth
      rest) :
    left.EndsBefore (.symbol operator.symbol :: (right.kinds ++ rest)) := by
  obtain ⟨⟨_, admitted, _, _, _, nullable⟩, printable, _, _, _, mistaken⟩ :=
    prints
  obtain ⟨-, -, notBare⟩ := isPrintable_binary_iff.mp printable
  refine ⟨fun type isEnd => ⟨?_, ?_, fun bareName => ?_, fun notNullable => ?_⟩,
    fun untyped starts => ?_, fun kind head precedence known => ?_⟩
  · cases operator <;> nofun
  · cases operator <;> nofun
  · intro isLess
    have less : operator = .less := by cases operator <;> first | rfl | cases isLess
    have other := notBare less
    rw [Option.mem_def.mp isEnd, Option.any_some] at other
    rw [other] at bareName
    cases bareName
  · intro starts
    have isBar : operator = .bitOr := by
      cases operator <;> first | rfl | exact starts.elim
    subst isBar
    have isNull : right.kinds.head? = some (.keyword .nullWord) := by
      rw [← head?_kinds_append right rest]
      revert starts
      generalize right.kinds ++ rest = behind
      intro starts
      unfold StartsNullable at starts
      split at starts
      · next others same =>
          rw [(List.cons.inj same).2]
          rfl
      · exact starts.elim
    rw [nullable rfl isNull type isEnd] at notNullable
    cases notNullable
  · have less : operator = .less := by
      cases operator <;> first | rfl | exact starts.elim
    subst less
    have closed : closes 1 (right.kinds ++ rest) = true := starts
    rw [mistaken rfl untyped] at closed
    cases closed
  · cases head
    rw [infixPrecedence?_symbol] at known
    cases known
    exact admitted

theorem PrintedBinary.operator {left right : ExprTree}
    {operator : BinaryOperator} (printedLeft : PrintedBinary left)
    (printedRight : PrintedBinary right) :
    PrintedBinary (.binary operator left right) := by
  intro least bound state rest ready kinds enough prints tight ends holds goesOn
  have inside : state.kinds = left.kinds ++
      .symbol operator.symbol :: (right.kinds ++ rest) := by
    rw [kinds]
    simp [ExprTree.kinds]
  have leftEnds := endsBefore_operator prints
  obtain ⟨⟨positive, admitted, tighter, leftGrammatical, rightGrammatical, _⟩,
    printable, shallow, leftUnmistaken, rightUnmistaken, _⟩ := prints
  obtain ⟨leftPrintable, rightPrintable, -⟩ := isPrintable_binary_iff.mp printable
  simp only [printedNesting] at shallow
  obtain ⟨fits, leftTight⟩ := Nat.le_min.mp tight
  have within : left.Prints state.depth
      (.symbol operator.symbol :: (right.kinds ++ rest)) :=
    ⟨leftGrammatical, leftPrintable, by omega, leftUnmistaken⟩
  refine printedLeft ready inside enough within leftTight leftEnds _
    fun id later fuel reaches more shows => ?_
  obtain ⟨depicts, onward⟩ := shows
  refine .inspect (.isFalse ?_ (.current reaches.ready onward ?_))
  · rw [reaches.ready.current_kind onward]
    simp [TokenKind.isKeyword]
  rw [binaryOperator?_symbol]
  refine .isFalse (Nat.not_lt.mpr fits) ?_
  refine .advance reaches.ready onward fun second further behind => ?_
  have depth : second.depth = state.depth := (reaches.trans further).depth
  have room := fewer_behind inside enough behind
  have stopped : Stopped (operator.precedence + 1) rest :=
    fun kind head precedence known =>
      Nat.lt_succ_of_le (ends.admits kind head precedence known)
  have rightEnds : right.EndsBefore rest :=
    ⟨ends.typed, ends.plain, fun kind head precedence known =>
      admits_of_le_loosest (Nat.le_trans
        (ends.admits kind head precedence known) (Nat.le_of_lt tighter))⟩
  refine .bind (printedRight.givesBinary further.ready behind room
    ⟨rightGrammatical, rightPrintable, by omega, rightUnmistaken⟩ tighter
    rightEnds stopped) ?_
  rintro other third next ⟨otherDepicts, remaining⟩
  have target := depicts.extends (further.trans next).extended
    reaches.ready.closed
  refine .inspect (.inspect (.bind (.addExpr next.ready
    (depicts_binary target otherDepicts operator)) ?_))
  rintro whole last final ⟨shown, same⟩
  have fewer : last.kinds.length < fuel := by
    rw [onward, List.length_cons, List.length_append] at more
    rw [same, remaining]
    omega
  exact ComesTo.goOn goesOn
    (reaches.trans (further.trans (next.trans final))) fewer
    ⟨shown, same.trans remaining⟩

theorem PrintedBinary.cast (printed : PrintedBinary tree) {type : TypeShape} :
    PrintedBinary (.cast tree type) := by
  intro least bound state rest ready kinds enough prints tight ends holds goesOn
  have inside : state.kinds = tree.kinds ++
      .keyword .asWord :: (type.kinds ++ rest) := by
    rw [kinds]
    simp [ExprTree.kinds]
  obtain ⟨⟨positive, admitted, grammatical, typeGrammatical⟩, printable, shallow,
    unmistaken⟩ := prints
  simp only [isPrintable, Bool.and_eq_true] at printable
  obtain ⟨fits, operandTight⟩ := Nat.le_min.mp tight
  have operandEnds : tree.EndsBefore (.keyword .asWord :: (type.kinds ++ rest)) := by
    refine ⟨fun _ _ => ⟨by simp, by simp, by simp, fun _ => id⟩, fun _ => id, ?_⟩
    rintro kind ⟨⟩ precedence ⟨⟩
    exact admitted
  refine printed ready inside enough ⟨grammatical, printable.1, shallow, unmistaken⟩
    operandTight operandEnds _ fun id later fuel reaches more shows => ?_
  obtain ⟨depicts, onward⟩ := shows
  refine .inspect (.isTrue ?_ ?_)
  · rw [reaches.ready.current_kind onward]
    simpa [TokenKind.isKeyword] using fits
  refine .advance reaches.ready onward fun second further behind => ?_
  refine .bind (gives_typeExpr typeGrammatical printable.2 further.ready behind
    (ends.typed type rfl)) ?_
  rintro result third next ⟨rfl, remaining⟩
  have target := depicts.extends (further.trans next).extended
    reaches.ready.closed
  refine .inspect (.bind (.addExpr next.ready (depicts_cast target result)) ?_)
  rintro whole last final ⟨shown, same⟩
  have fewer : last.kinds.length < fuel := by
    rw [onward, List.length_cons, List.length_append] at more
    rw [same, remaining]
    omega
  exact ComesTo.goOn goesOn
    (reaches.trans (further.trans (next.trans final))) fewer
    ⟨shown, same.trans remaining⟩

/-! ### Conditionals and assignments -/

theorem PrintedBinary.choice {whenTrue whenFalse : ExprTree}
    (printed : PrintedBinary tree) (first : PrintedAssignment whenTrue)
    (second : PrintedAssignment whenFalse) :
    PrintedAssignment (.conditional tree whenTrue whenFalse) := by
  intro bound state rest ready kinds enough prints ended
  have inside : state.kinds = tree.kinds ++ .symbol .question ::
      (whenTrue.kinds ++ .symbol .colon :: (whenFalse.kinds ++ rest)) := by
    rw [kinds]
    simp [ExprTree.kinds]
  obtain ⟨⟨positive, grammatical, firstGrammatical, secondGrammatical⟩, printable,
    shallow, unmistaken, firstUnmistaken, secondUnmistaken⟩ := prints
  simp only [isPrintable, Bool.and_eq_true] at printable
  simp only [printedNesting] at shallow
  refine gives_assignment_of_conditional ?_ ended
  have within : tree.Prints state.depth (.symbol .question ::
      (whenTrue.kinds ++ .symbol .colon :: (whenFalse.kinds ++ rest))) :=
    ⟨grammatical, printable.1.1, by omega, by simpa using unmistaken⟩
  refine .bind (printed.gives ready inside enough within positive
    (endsBefore_of_symbol (by decide) rfl _) (stopped_of_no_operator rfl _)) ?_
  rintro condition later reaches ⟨depicts, onward⟩
  refine .eatSymbol reaches.ready onward fun third further behind => ?_
  have depth : third.depth = state.depth := (reaches.trans further).depth
  have room := fewer_behind inside enough behind
  refine .bind (first.givesAssignment further.ready behind room
    ⟨firstGrammatical, printable.1.2, by omega, by simpa using firstUnmistaken⟩
    (.of_head rfl rfl)) ?_
  rintro left fourth next ⟨leftDepicts, colon⟩
  refine .bind (.expectSymbol next.ready colon) fun _ fifth after values => ?_
  have depthAfter : fifth.depth = state.depth :=
    ((reaches.trans further).trans (next.trans after)).depth
  have roomAfter : fifth.kinds.length < bound := by
    rw [inside] at enough
    rw [values]
    simp only [List.length_append, List.length_cons] at enough ⊢
    omega
  refine .bind (second.givesAssignment after.ready values roomAfter
    ⟨secondGrammatical, printable.2, by omega, secondUnmistaken⟩ ended) ?_
  rintro right sixth final ⟨rightDepicts, remaining⟩
  have target := depicts.extends
    (further.trans (next.trans (after.trans final))).extended
    reaches.ready.closed
  have middle := leftDepicts.extends (after.trans final).extended
    next.ready.closed
  refine .inspect (.inspect ((Gives.addExpr final.ready
    (depicts_conditional target middle rightDepicts)).imp ?_))
  rintro whole last _ ⟨shown, same⟩
  exact ⟨shown, same.trans remaining⟩

theorem isAssignable_of_tree {arena : Arena} (closed : arena.Closed)
    {id : ExprId} (depicts : arena.Depicts id tree)
    (assignable : tree.isAssignable = true) :
    Grammar.isAssignable (arena.expr id).node = true := by
  have shown : arena.exprTree id = tree := depicts.shown
  rw [closed.exprTree_eq] at shown
  subst shown
  generalize (arena.expr id).node = node at assignable
  cases node with
  | literal literal => cases literal <;> cases assignable
  | _ => first | rfl | cases assignable

theorem isAssignable_guarded (assignable : tree.isAssignable = true) :
    tree.guarded.isAssignable = true := by
  cases tree <;> first | rfl | cases assignable

theorem PrintedBinary.assign {value : ExprTree}
    {operator : Option BinaryOperator} (printed : PrintedBinary tree)
    (printedValue : PrintedAssignment value) :
    PrintedAssignment (.assign operator tree value) := by
  intro bound state rest ready kinds enough prints ended
  have inside : state.kinds = tree.kinds ++
      .symbol (assignmentSymbol operator) :: (value.kinds ++ rest) := by
    rw [kinds]
    simp [ExprTree.kinds]
  obtain ⟨⟨known, assignable, grammatical, valueGrammatical⟩, printable, shallow,
    unmistaken, valueUnmistaken⟩ := prints
  simp only [isPrintable, Bool.and_eq_true] at printable
  simp only [printedNesting] at shallow
  have positive : 0 < tree.loosest := by
    cases tree <;> first | exact Nat.succ_pos _ | cases assignable
  have noInfix : infixPrecedence? (.symbol (assignmentSymbol operator)) = none := by
    unfold assignmentSymbol
    split <;> rfl
  have ends : tree.EndsBefore
      (.symbol (assignmentSymbol operator) :: (value.kinds ++ rest)) := by
    refine endsBefore_of_symbol ?_ noInfix _
    unfold assignmentSymbol
    split <;> decide
  have other : (TokenKind.symbol (assignmentSymbol operator)) ≠
      .symbol .question := by
    unfold assignmentSymbol
    split <;> simp
  have within : tree.Prints state.depth
      (.symbol (assignmentSymbol operator) :: (value.kinds ++ rest)) :=
    ⟨grammatical, printable.1, by omega, unmistaken⟩
  refine .bind (printed.conditional ready inside enough within positive ends
    (stopped_of_no_operator noInfix _) (by simpa using other)) ?_
  rintro target later reaches ⟨depicts, onward⟩
  refine .current reaches.ready onward ?_
  rw [known]
  refine .inspect (.isTrue (isAssignable_of_tree reaches.ready.closed depicts
    (isAssignable_guarded assignable)) ?_)
  refine .advance reaches.ready onward fun second further behind => ?_
  have depth : second.depth = state.depth := (reaches.trans further).depth
  have room := fewer_behind inside enough behind
  refine .bind (printedValue.givesAssignment further.ready behind room
    ⟨valueGrammatical, printable.2, by omega, valueUnmistaken⟩ ended) ?_
  rintro result third next ⟨valueDepicts, remaining⟩
  have stored := depicts.extends (further.trans next).extended
    reaches.ready.closed
  refine .inspect ((Gives.addExpr next.ready
    (depicts_assign stored valueDepicts operator)).imp ?_)
  rintro whole last _ ⟨shown, same⟩
  exact ⟨shown, same.trans remaining⟩

end

/-! ### All expressions -/

theorem precedence_pos (operator : BinaryOperator) :
    0 < operator.precedence := by
  cases operator <;> decide

theorem precedence_lt (operator : BinaryOperator) :
    operator.precedence < unaryTightness := by
  cases operator <;> decide

mutual

theorem printed (tree : ExprTree) (grammatical : tree.Grammatical) :
    Printed tree := by
  cases tree with
  | null => exact printedPostfix_null.printed (Nat.le_refl _)
  | bool value => exact (printedPostfix_bool value).printed (Nat.le_refl _)
  | integer value spelling =>
      exact (printedPostfix_integer value spelling).printed (Nat.le_refl _)
  | float value spelling =>
      exact (printedPostfix_float value spelling).printed (Nat.le_refl _)
  | string content =>
      exact (printedPostfix_string content).printed (Nat.le_refl _)
  | array elements =>
      have inner := allPrinted elements grammatical
      exact (printedPostfix_array inner).printed (Nat.le_refl _)
  | object entries =>
      have inner := entriesPrinted entries grammatical
      exact (printedPostfix_object inner).printed (Nat.le_refl _)
  | identifier name =>
      exact (printedPostfix_identifier name).printed (Nat.le_refl _)
  | this => exact printedPostfix_this.printed (Nat.le_refl _)
  | new type arguments =>
      have inner := allPrinted arguments grammatical.2
      exact (printedPostfix_new inner).printed (Nat.le_refl _)
  | call callee types arguments =>
      obtain ⟨tight, calleeGrammatical, _, _, allGrammatical⟩ := grammatical
      have target := (printed callee calleeGrammatical).postfix_ tight
      have inner := allPrinted arguments allGrammatical
      by_cases untyped : types = []
      · subst untyped
        exact (target.call inner).printed (Nat.le_refl _)
      · exact (target.typedCall untyped inner).printed (Nat.le_refl _)
  | member target property =>
      obtain ⟨tight, targetGrammatical, _⟩ := grammatical
      have outer := (printed target targetGrammatical).postfix_ tight
      exact outer.member.printed (Nat.le_refl _)
  | index target position =>
      obtain ⟨tight, targetGrammatical, innerGrammatical⟩ := grammatical
      have outer := (printed target targetGrammatical).postfix_ tight
      have inner := (printed position innerGrammatical).assignment
      exact (outer.index inner).printed (Nat.le_refl _)
  | binary operator left right =>
      obtain ⟨positive, _, tighter, leftGrammatical, rightGrammatical, _⟩ :=
        grammatical
      have first := (printed left leftGrammatical).binary positive
      have second := (printed right rightGrammatical).binary
        (Nat.zero_lt_of_lt tighter)
      exact (first.operator second).printed
        (Nat.lt_min.mpr ⟨precedence_pos operator, positive⟩)
        (Nat.lt_of_le_of_lt (Nat.min_le_left _ _) (precedence_lt operator))
  | unary operator operand =>
      obtain ⟨tight, operandGrammatical⟩ := grammatical
      have inner := printed operand operandGrammatical
      refine PrintedUnary.printed ?_ rfl
      cases isUnary : operand.isUnary with
      | true => exact inner.assignment.unary isUnary
      | false => exact (inner.unary tight).unary isUnary
  | assign operator target value =>
      obtain ⟨_, assignable, targetGrammatical, valueGrammatical⟩ := grammatical
      have positive : 0 < target.loosest := by
        cases target <;> first | exact Nat.succ_pos _ | cases assignable
      have first := (printed target targetGrammatical).binary positive
      have second := (printed value valueGrammatical).assignment
      exact (first.assign second).printed rfl
  | conditional condition whenTrue whenFalse =>
      obtain ⟨positive, conditionGrammatical, trueGrammatical,
        falseGrammatical⟩ := grammatical
      have first := (printed condition conditionGrammatical).binary positive
      have second := (printed whenTrue trueGrammatical).assignment
      have third := (printed whenFalse falseGrammatical).assignment
      exact (first.choice second third).printed rfl
  | cast operand type =>
      obtain ⟨positive, _, operandGrammatical, _⟩ := grammatical
      have inner := (printed operand operandGrammatical).binary positive
      exact inner.cast.printed (Nat.lt_min.mpr ⟨by decide, positive⟩)
        (Nat.lt_of_le_of_lt (Nat.min_le_left _ _) (by decide))
  | paren inner =>
      exact (printed inner grammatical).assignment.paren.printed (Nat.le_refl _)

theorem allPrinted (trees : List ExprTree)
    (grammatical : AllGrammatical trees) : ∀ tree ∈ trees, Printed tree := by
  cases trees with
  | nil => simp
  | cons tree rest =>
      exact List.forall_mem_cons.mpr ⟨printed tree grammatical.1,
        allPrinted rest grammatical.2⟩

theorem entriesPrinted (entries : List (String × ExprTree))
    (grammatical : EntriesGrammatical entries) :
    ∀ entry ∈ entries, Printed entry.2 := by
  cases entries with
  | nil => simp
  | cons entry rest =>
      obtain ⟨key, value⟩ := entry
      exact List.forall_mem_cons.mpr ⟨printed value grammatical.1,
        entriesPrinted rest grammatical.2⟩

end

/-! ### Expressions in programs -/

section

variable {tree : ExprTree} {state : State} {rest : List TokenKind}

/-- An expression between commas or alone is read back. -/
theorem gives_expression (grammatical : tree.Grammatical)
    (ready : state.Ready) (kinds : state.kinds = tree.kinds ++ rest)
    (prints : tree.Prints (state.depth + 1) rest) (ended : Ended rest) :
    Gives state expression (Shows tree rest) := by
  have enough : state.kinds.length < state.rest.length + 1 := by
    rw [State.kinds_length]
    exact Nat.lt_succ_self _
  exact .inspect ((printed tree grammatical).assignment.givesExpression ready
    kinds enough prints ended)

theorem gives_standalone (standalone : tree.Standalone)
    (prints : tree.printsAlone = true) (ready : state.Ready)
    (flat : state.depth = 0) (kinds : state.kinds = tree.kinds ++ rest)
    (ended : Ended rest) (inert : Inert rest) :
    Gives state expression (Shows tree rest) := by
  obtain ⟨printable, shallow⟩ := printsAlone_iff.mp prints
  refine gives_expression standalone.grammatical ready kinds
    ⟨standalone.grammatical, printable, ?_, standalone.unmistaken rest inert⟩
    ended
  rw [flat]
  omega

theorem gives_decoratorArguments {trees : List ExprTree}
    (enclosed : AllEnclosed 0 trees) (prints : trees.all printsAlone = true)
    (ready : state.Ready) (flat : state.depth = 0)
    (kinds : state.kinds =
      joinedKinds (kindsOfAll trees) ++ .symbol .closeParen :: rest) :
    Gives state decoratorArguments fun ids later =>
      later.arena.Depicts ids (allGuarded trees) ∧ later.kinds = rest := by
  obtain ⟨printable, shallow⟩ := arePrintable_of_all prints
  refine gives_exprList rfl (by decide) ?_ ready flat kinds (Nat.lt_succ_self _)
    ⟨enclosed.grammatical, printable, shallow, enclosed.unmistaken rest⟩
  intro tree member start others ready same kinds _ prints ended
  exact gives_expression prints.grammatical ready kinds (same ▸ prints) ended

end

end Grammar

end PluginSurface
