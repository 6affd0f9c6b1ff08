import PluginSurface.Proofs.Grammar.ParsedExpressions
import PluginSurface.Proofs.Grammar.RankedTrees
import PluginSurface.Proofs.Grammar.TypeArguments

/-!
# Chains of operators

Operands with operators between them are read as the ranked tree of the chain,
unless a `<` in the chain may open type arguments. Then the parser goes past the
parenthesis behind these, which does not belong to the chain, or fails.
-/

namespace PluginSurface.Grammar

variable {Result Next : Type}

/-! ## States and tokens -/

/-- A state that a parser leads to without reporting a fault, in which nodes may
have been added. -/
structure State.Grows (state later : State) : Prop where
  closed : later.arena.Closed
  extended : state.arena.Extends later.arena
  silent : later.diagnostics = state.diagnostics

theorem State.Grows.trans {state later last : State} (first : state.Grows later)
    (second : later.Grows last) : state.Grows last :=
  ⟨second.closed, first.extended.trans second.extended,
    second.silent.trans first.silent⟩

section

variable {state : State} {token : Token} {rest : List Token}

theorem State.current_of_front (front : state.rest = token :: rest) :
    state.current = token := by
  rw [State.current, front]
  rfl

theorem State.rest_advance (front : state.rest = token :: rest) :
    state.advance.rest = rest := by
  rw [State.advance, front]

theorem State.grows_advance (closed : state.arena.Closed) :
    state.Grows state.advance := by
  unfold State.advance
  split <;> exact ⟨closed, .refl _, rfl⟩

end

/-- A `<` in front of what may be type arguments of a call: flat units with
matching angles, a `>` and a parenthesis. -/
def Ambiguous (token : Token) (rest : List Token) : Prop :=
  token.kind = .symbol .less ∧ ∃ types after,
    units rest = types ++ .symbol .greater :: .symbol .openParen :: after ∧
      AnglesMatch types

theorem ambiguous_iff {token : Token} {rest : List Token} :
    Ambiguous token rest ↔ token.kind = .symbol .less ∧
      closes 1 (rest.map Token.kind) = true := by
  have counted := closes_iff_openAngles?
    (fun unit (member : unit ∈ units rest) => unitsOf_of_mem_units member)
    (Int.le_refl 0)
  rw [← closes_units _ Int.one_pos]
  exact and_congr_right fun _ => counted.symm

/-- No `<` among some tokens may open type arguments, if others stand behind
them. -/
def Unambiguous (tail : List Token) : List Token → Prop
  | [] => True
  | token :: rest => ¬ Ambiguous token (rest ++ tail) ∧ Unambiguous tail rest

/-- The first of some tokens is no such `<`. -/
def HeadFree (tail : List Token) : List Token → Prop
  | [] => True
  | token :: rest => ¬ Ambiguous token (rest ++ tail)

theorem Unambiguous.behind {tail taken left : List Token}
    (unambiguous : Unambiguous tail (taken ++ left)) : Unambiguous tail left := by
  induction taken with
  | nil => exact unambiguous
  | cons _ _ inductionHypothesis => exact inductionHypothesis unambiguous.2

theorem Unambiguous.headFree {tail tokens : List Token}
    (unambiguous : Unambiguous tail tokens) : HeadFree tail tokens := by
  cases tokens with
  | nil => trivial
  | cons _ _ => exact unambiguous.1

/-! ## Types and mere look-alikes -/

/-- A `<` in front of type arguments of a call. -/
def OpensTypes (token : Token) (rest : List Token) : Prop :=
  token.kind = .symbol .less ∧ ∃ types after,
    units rest = types ++ .symbol .greater :: .symbol .openParen :: after ∧
      AnglesMatch types ∧ SpellsType .several types

/-- A `<` in front of what is taken for type arguments of a call, but spells no
types. -/
def MimicsTypes (token : Token) (rest : List Token) : Prop :=
  token.kind = .symbol .less ∧ ∃ types after,
    units rest = types ++ .symbol .greater :: .symbol .openParen :: after ∧
      AnglesMatch types ∧ ¬ SpellsType .several types

/-- Of some tokens with others behind them, one and all behind it are as
told. -/
def Somewhere (told : Token → List Token → Prop)
    (tail tokens : List Token) : Prop :=
  ∃ before token behind,
    tokens = before ++ token :: behind ∧ told token (behind ++ tail)

theorem ambiguous_iff_opens_or_mimics {token : Token} {rest : List Token} :
    Ambiguous token rest ↔ OpensTypes token rest ∨ MimicsTypes token rest := by
  constructor
  · rintro ⟨less, types, after, split, matched⟩
    by_cases spells : SpellsType .several types
    · exact .inl ⟨less, types, after, split, matched, spells⟩
    · exact .inr ⟨less, types, after, split, matched, spells⟩
  · rintro (⟨less, types, after, split, matched, -⟩ |
      ⟨less, types, after, split, matched, -⟩)
    all_goals exact ⟨less, types, after, split, matched⟩

theorem somewhere_cons_iff {told : Token → List Token → Prop}
    {tail rest : List Token} {token : Token} :
    Somewhere told tail (token :: rest) ↔
      told token (rest ++ tail) ∨ Somewhere told tail rest := by
  constructor
  · rintro ⟨_ | ⟨first, before⟩, found, behind, split, isTold⟩
    · obtain ⟨rfl, rfl⟩ := List.cons.inj split
      exact .inl isTold
    · obtain ⟨rfl, rfl⟩ := List.cons.inj split
      exact .inr ⟨before, found, behind, rfl, isTold⟩
  · rintro (isTold | ⟨before, found, behind, rfl, isTold⟩)
    · exact ⟨[], token, rest, rfl, isTold⟩
    · exact ⟨token :: before, found, behind, rfl, isTold⟩

/-- A chain is unambiguous if no `<` in it opens types or seems to. -/
theorem unambiguous_iff {tail tokens : List Token} :
    Unambiguous tail tokens ↔
      ¬ Somewhere OpensTypes tail tokens ∧
        ¬ Somewhere MimicsTypes tail tokens := by
  induction tokens with
  | nil =>
      have nowhere (told : Token → List Token → Prop) :
          ¬ Somewhere told tail [] := by
        rintro ⟨before, _, _, split, -⟩
        exact List.append_ne_nil_of_right_ne_nil before
          (List.cons_ne_nil _ _) split.symm
      exact ⟨fun _ => ⟨nowhere _, nowhere _⟩, fun _ => trivial⟩
  | cons token rest inductionHypothesis =>
      rw [Unambiguous, inductionHypothesis, ambiguous_iff_opens_or_mimics,
        somewhere_cons_iff, somewhere_cons_iff]
      simp only [not_or]
      exact and_and_and_comm

/-- Tokens behind an operand that may continue an expression. -/
def continues (kind : TokenKind) : Bool :=
  match kind with
  | .symbol .openParen | .symbol .openBracket | .symbol .dot
  | .symbol .question | .keyword .asWord => true
  | _ => (binaryOperator? kind).isSome || (assignmentOperator? kind).isSome

/-! ## Leading on and straying -/

/-- A parser gives a result and leaves a state. -/
def Leaves (state : State) (parser : Parse Result) (result : Result)
    (later : State) : Prop :=
  parser state = (some result, later)

namespace Leaves

variable {state later last : State} {result : Result} {final : Next}

theorem pure : Leaves state (Pure.pure result) result state :=
  rfl

theorem inspect {view : State → Result} {next : Result → Parse Next}
    (second : Leaves state (next (view state)) final last) :
    Leaves state (Parse.inspect view >>= next) final last :=
  second

theorem bind {parser : Parse Result} {next : Result → Parse Next}
    (first : Leaves state parser result later)
    (second : Leaves later (next result) final last) :
    Leaves state (parser >>= next) final last := by
  unfold Leaves at *
  simp only [Bind.bind, first, second]

end Leaves

/-- Where a parser gives a result, fewer tokens are left than a number. -/
def Strays (state : State) (parser : Parse Result) (size : Nat) : Prop :=
  ∀ result later, parser state = (some result, later) →
    later.rest.length < size

namespace Strays

variable {state : State} {size : Nat}

theorem leads {parser : Parse Result} {next : Result → Parse Next}
    {result : Result} {later : State}
    (first : Leaves state parser result later)
    (strays : Strays later (next result) size) :
    Strays state (parser >>= next) size := by
  intro final last ran
  obtain ⟨found, middle, parsed, further⟩ := bind_eq_some ran
  cases first.symm.trans parsed
  exact strays final last further

theorem bind {parser : Parse Result} {next : Result → Parse Next}
    (strays : Strays state parser size)
    (steady : ∀ result, Steady (next result)) :
    Strays state (parser >>= next) size := by
  intro result last ran
  obtain ⟨found, later, parsed, further⟩ := bind_eq_some ran
  exact Nat.lt_of_le_of_lt ((steady found).of_state further).length_le
    (strays found later parsed)

theorem inspect {view : State → Result} {next : Result → Parse Next}
    (strays : Strays state (next (view state)) size) :
    Strays state (Parse.inspect view >>= next) size :=
  strays

/-- A parser strays if it does wherever its first part may lead. -/
theorem after {parser : Parse Result} {next : Result → Parse Next}
    [Steady parser] (strays : ∀ result later, state.Passes later →
      Strays later (next result) size) :
    Strays state (parser >>= next) size := by
  intro result last ran
  obtain ⟨found, later, parsed, further⟩ := bind_eq_some ran
  exact strays found later (Steady.of_state parsed) result last further

end Strays

/-- As long as more tokens are left than those behind a list, the one in front
is of the list or left of a symbol of it. -/
theorem Onward.front_ne {previous last : Span} {tokens left : List Token}
    (onward : Onward previous tokens last left) {chain tail : List Token}
    (split : tokens = chain ++ tail)
    (free : ∀ token ∈ chain, token.kind ≠ .symbol .openParen)
    (longer : tail.length < left.length) :
    ∃ token rest, left = token :: rest ∧ token.kind ≠ .symbol .openParen := by
  induction onward generalizing chain with
  | refl previous tokens =>
      subst split
      cases chain with
      | nil => exact absurd longer (Nat.lt_irrefl _)
      | cons token chain => exact ⟨token, _, rfl, free token (by simp)⟩
  | @take previous last token rest left further inductionHypothesis =>
      cases chain with
      | nil =>
          have shorter := further.length_le
          rw [List.nil_append] at split
          rw [← split, List.length_cons] at longer
          omega
      | cons first chain =>
          obtain ⟨rfl, rfl⟩ := List.cons.inj split
          exact inductionHypothesis rfl
            (fun token member => free token (List.mem_cons_of_mem _ member))
            longer
  | @split previous last span token mark half rest left found splits further
      inductionHypothesis =>
      cases chain with
      | nil =>
          have shorter := further.length_le
          rw [List.nil_append] at split
          rw [← split, List.length_cons] at longer
          rw [List.length_cons] at shorter
          omega
      | cons first chain =>
          obtain ⟨rfl, rfl⟩ := List.cons.inj split
          refine @inductionHypothesis (⟨.symbol half, span⟩ :: chain) rfl ?_
            longer
          refine List.forall_mem_cons.mpr ⟨?_, fun token member =>
            free token (List.mem_cons_of_mem _ member)⟩
          cases mark <;> cases splits <;> nofun

/-- The parenthesis behind type arguments does not belong to a list without
one. -/
theorem strays_expectSymbol {start state : State} {chain tail : List Token}
    (front : start.rest = chain ++ tail) (ends : start.Ends)
    (free : ∀ token ∈ chain, token.kind ≠ .symbol .openParen)
    (passes : start.Passes state) :
    Strays state (expectSymbol .openParen) tail.length := by
  refine .inspect ?_
  split
  · next found =>
      rintro _ _ ⟨⟩
      have opens := isSymbol_iff.mp found
      have shorter := State.length_advance_lt (passes.ends ends) (opens ▸ nofun)
      refine Nat.lt_of_lt_of_le shorter (Nat.not_lt.mp fun longer => ?_)
      obtain ⟨token, rest, same, other⟩ :=
        passes.onward.front_ne front free longer
      exact other (State.current_of_front same ▸ opens)
  · exact fun _ _ ran => nomatch congrArg Prod.fst ran

/-! ## Operands -/

section

variable (sub : ExprGoal → Parse ExprId) {state : State} {token : Token}
  {rest : List Token} {tree : ExprTree}

theorem primaryNode_operand {kind : TokenKind}
    (stands : operandTree? kind = some tree)
    (found : state.current.kind = kind) :
    ∃ node : Expr, primaryNode sub state = (some node, state.advance) ∧
      node.children = [] ∧ node.treeWith (fun _ => .null) = tree := by
  unfold operandTree? at stands
  split at stands
  case h_8 word _ _ _ =>
    split at stands <;> cases stands
    next contextual =>
      simp only [primaryNode, currentKind, Parse.inspect, Bind.bind, found]
      cases word <;> first | exact ⟨_, rfl, rfl, rfl⟩ | cases contextual
  case h_9 => cases stands
  all_goals
    cases stands
    simp only [primaryNode, currentKind, Parse.inspect, Bind.bind, found]
    exact ⟨_, rfl, rfl, rfl⟩

/-- A token that is an operand by itself is read as what it stands for. -/
theorem primary_operand (closed : state.arena.Closed)
    (front : state.rest = token :: rest)
    (stands : operandTree? token.kind = some tree) :
    ∃ id later, primary sub state = (some id, later) ∧ later.rest = rest ∧
      state.Grows later ∧ later.arena.Depicts id tree := by
  obtain ⟨node, parsed, leaf, shown⟩ :=
    primaryNode_operand sub stands (by rw [State.current_of_front front])
  have depicts : state.advance.arena.Depicts node tree := by
    have same : node.treeWith state.advance.arena.exprTree = tree :=
      (Expr.treeWith_congr (by simp [leaf])).trans shown
    exact same ▸ depicts_leaf leaf _
  have grows := State.grows_advance closed
  let span := state.current.span.merge state.advance.previous
  refine ⟨(state.advance.arena.addExpr node span).1,
    { state.advance with arena := (state.advance.arena.addExpr node span).2 },
    ?_, State.rest_advance front, ?_, grows.closed.depicts_addExpr depicts _⟩
  · simp only [primary, Bind.bind, currentSpan, Parse.inspect, parsed]
    rfl
  · refine ⟨grows.closed.addExpr (by simp [leaf]) _,
      grows.extended.trans (Arena.extends_addExpr _ _ _), grows.silent⟩

theorem unaryOperator?_operand {kind : TokenKind}
    (stands : operandTree? kind = some tree) : unaryOperator? kind = none := by
  cases kind <;> first | rfl | cases stands

theorem accesses_stop {kind : TokenKind} (found : state.current.kind = kind)
    (other : kind ≠ .symbol .openParen ∧ kind ≠ .symbol .dot ∧
      kind ≠ .symbol .openBracket)
    (looks : kind = .symbol .less → closesBeforeCall 0 state.rest = false)
    (bound : Nat) (expr : ExprId) :
    Leaves state (accesses sub (bound + 1) expr) expr state := by
  obtain ⟨notParen, notDot, notBracket⟩ := other
  unfold accesses
  refine .inspect ?_
  rw [found]
  split
  · exact absurd rfl notParen
  · refine .inspect ?_
    rw [looks rfl, Bool.and_false]
    exact .pure
  · exact absurd rfl notDot
  · exact absurd rfl notBracket
  · exact .pure

theorem links_free {links : List Token} (isLinks : Links links) :
    ∀ token ∈ links, token.kind ≠ .symbol .openParen := by
  induction isLinks with
  | nil => nofun
  | cons joins stands _ inductionHypothesis =>
      exact List.forall_mem_cons.mpr ⟨kind_ne_of_some joins rfl,
        List.forall_mem_cons.mpr
          ⟨kind_ne_of_some stands rfl, inductionHypothesis⟩⟩

variable [∀ goal, Steady (sub goal)]

theorem closesBeforeCall_front {links tail : List Token}
    (front : state.rest = token :: links ++ tail)
    (less : token.kind = .symbol .less) :
    closesBeforeCall 0 state.rest =
      closes 1 ((links ++ tail).map Token.kind) := by
  rw [closesBeforeCall_eq, front, List.cons_append, List.map_cons, less]
  rfl

theorem accesses_strays {links tail : List Token} (ends : state.Ends)
    (front : state.rest = token :: links ++ tail)
    (free : ∀ token ∈ links, token.kind ≠ .symbol .openParen)
    (ambiguous : Ambiguous token (links ++ tail)) (bound : Nat) (expr : ExprId) :
    Strays state (accesses sub (bound + 1) expr) tail.length := by
  obtain ⟨less, closed⟩ := ambiguous_iff.mp ambiguous
  have current : state.current.kind = .symbol .less := by
    rw [State.current_of_front front, less]
  unfold accesses
  refine .inspect ?_
  rw [current]
  refine .inspect ?_
  rw [closesBeforeCall_front front less, closed, current]
  refine .after fun _ first passes => .after fun types second onward =>
    .after fun _ third further => .bind ?_ inferInstance
  exact strays_expectSymbol front ends (List.forall_mem_cons.mpr
    ⟨by simp [less], free⟩) (passes.trans (onward.trans further))

/-- Behind an operand, calls and accesses end, unless a `<` is taken to open
type arguments. -/
theorem accesses_links {links tail : List Token} {stop : Token}
    (ends : state.Ends) (isLinks : Links links)
    (stops : continues stop.kind = false)
    (front : state.rest = links ++ stop :: tail) (bound : Nat) (expr : ExprId) :
    HeadFree (stop :: tail) links ∧
        Leaves state (accesses sub (bound + 1) expr) expr state ∨
      ¬ HeadFree (stop :: tail) links ∧
        Strays state (accesses sub (bound + 1) expr) (stop :: tail).length := by
  cases isLinks with
  | nil =>
      refine .inl ⟨trivial, accesses_stop sub (by rw [State.current_of_front front])
        ⟨?_, ?_, ?_⟩ ?_ bound expr⟩
      all_goals
        intro same
        rw [same] at stops
        cases stops
  | @cons operator operand others symbol tree joins stands more =>
      by_cases ambiguous : Ambiguous operator (operand :: others ++ stop :: tail)
      · refine .inr ⟨not_not_intro ambiguous, ?_⟩
        exact accesses_strays sub ends front (List.forall_mem_cons.mpr
          ⟨kind_ne_of_some stands rfl, links_free more⟩) ambiguous bound expr
      · refine .inl ⟨ambiguous, accesses_stop sub
          (by rw [State.current_of_front front])
          ⟨kind_ne_of_some joins rfl, kind_ne_of_some joins rfl, kind_ne_of_some joins rfl⟩
          (fun less => ?_) bound expr⟩
        rw [closesBeforeCall_front front less]
        exact Bool.eq_false_iff.mpr fun closed =>
          ambiguous (ambiguous_iff.mpr ⟨less, closed⟩)

end

theorem continues_eq_false {kind : TokenKind} (stops : continues kind = false) :
    binaryOperator? kind = none ∧ kind.isKeyword .asWord = false ∧
      assignmentOperator? kind = none ∧ kind.isSymbol .question = false := by
  unfold continues at stops
  split at stops
  case h_6 notParen notBracket notDot notQuestion notAs =>
    rw [Bool.or_eq_false_iff, Option.isSome_eq_false_iff, Option.isNone_iff_eq_none,
      Option.isSome_eq_false_iff, Option.isNone_iff_eq_none] at stops
    exact ⟨stops.1, Bool.eq_false_iff.mpr (mt isKeyword_iff.mp notAs), stops.2,
      Bool.eq_false_iff.mpr (mt isSymbol_iff.mp notQuestion)⟩
  all_goals cases stops

theorem isKeyword_operator {kind : TokenKind} {symbol : BinaryOperator}
    (joins : binaryOperator? kind = some symbol) (word : Keyword) :
    kind.isKeyword word = false := by
  refine Bool.eq_false_iff.mpr fun isWord => ?_
  rw [isKeyword_iff.mp isWord] at joins
  cases joins

/-! ## Parts of a chain -/

/-- A chain of operators stands in front of a token that continues no
expression. -/
structure BeforeChain (state : State) (operand : Token) (links : List Token)
    (stop : Token) (tail : List Token) : Prop where
  ends : state.Ends
  closed : state.arena.Closed
  stands : ∃ tree, operandTree? operand.kind = some tree
  isLinks : Links links
  stops : continues stop.kind = false
  front : state.rest = operand :: links ++ stop :: tail

/-- The first tokens of a chain are read as a tree, and others are left. -/
structure ReadsPart (start : State) (chain tail : List Token) (least : Nat)
    (id : ExprId) (later : State) (tree : ExprTree) (taken left : List Token) :
    Prop where
  split : chain = taken ++ left
  inOrder : InOrder tree taken
  ranked : tree.Ranked
  admits : tree.admits least
  depicts : later.arena.Depicts id tree
  grows : start.Grows later
  ends : later.Ends
  front : later.rest = left ++ tail
  isLinks : Links left
  free : HeadFree tail left
  unambiguous : Unambiguous tail left → Unambiguous tail chain

/-- What holds of the precedence of the operator in front of some links. -/
def NextOperator (holds : Nat → Prop) (left : List Token) : Prop :=
  ∀ token ∈ left.head?, ∀ operator ∈ binaryOperator? token.kind,
    holds operator.precedence

/-- From a state a parser reads a chain as far as the operators bind tightly
enough, or it goes past the chain or fails, where a `<` is ambiguous. -/
def ReadsChain (start : State) (chain tail : List Token) (least : Nat)
    (state : State) (parser : Parse ExprId) : Prop :=
  (∃ id later tree taken left, Leaves state parser id later ∧
    ReadsPart start chain tail least id later tree taken left ∧
    NextOperator (· < least) left) ∨
  ¬ Unambiguous tail chain ∧ Strays state parser tail.length

/-- A parser of right operands reads chains up to a length. -/
def ReadsOperands (sub : ExprGoal → Parse ExprId) (size : Nat) : Prop :=
  ∀ state operand links stop tail least, links.length < size →
    BeforeChain state operand links stop tail →
    ReadsChain state (operand :: links) (stop :: tail) least state
      (sub (.binary least))

namespace ReadsChain

variable {start state later : State} {chain tail : List Token} {least : Nat}

theorem leads {parser : Parse Result} {next : Result → Parse ExprId}
    {result : Result} (first : Leaves state parser result later)
    (reads : ReadsChain start chain tail least later (next result)) :
    ReadsChain start chain tail least state (parser >>= next) := by
  refine reads.imp ?_ (And.imp_right (.leads first))
  rintro ⟨id, last, tree, taken, left, leaves, known⟩
  exact ⟨id, last, tree, taken, left, first.bind leaves, known⟩

theorem inspect {view : State → Result} {next : Result → Parse ExprId}
    (reads : ReadsChain start chain tail least state (next (view state))) :
    ReadsChain start chain tail least state (Parse.inspect view >>= next) :=
  reads

end ReadsChain

section

variable (sub : ExprGoal → Parse ExprId) {start state : State}
  {chain taken left tail : List Token} {least : Nat} {id : ExprId}
  {tree : ExprTree}

/-- No operator follows that binds tightly enough. -/
theorem binaryRest_stop {kind : TokenKind} (found : state.current.kind = kind)
    (noCast : kind.isKeyword .asWord = false)
    (loose : ∀ operator ∈ binaryOperator? kind, operator.precedence < least)
    (bound : Nat) :
    Leaves state (binaryRest sub least (bound + 1) id) id state := by
  unfold binaryRest
  refine .inspect ?_
  rw [found, noCast, Bool.false_and]
  refine .inspect ?_
  rw [found]
  split
  · exact .pure
  · next operator joins =>
      rw [if_pos (loose operator joins)]
      exact .pure

/-- An operator with its right operand is joined to what stands before. -/
theorem ReadsPart.join {second : State} {operator : Token}
    {symbol : BinaryOperator} {rightTaken right more : List Token}
    {rightId : ExprId} {rightTree : ExprTree}
    (part : ReadsPart start chain tail least id state tree taken
      (operator :: right))
    (joins : binaryOperator? operator.kind = some symbol)
    (tight : least ≤ symbol.precedence) (loose : tree.admits symbol.precedence)
    (operand : ReadsPart state.advance right tail (symbol.precedence + 1)
      rightId second rightTree rightTaken more) (span : Span) :
    ReadsPart start chain tail least
      (second.arena.addExpr (.binary symbol id rightId) span).1
      { second with
        arena := (second.arena.addExpr (.binary symbol id rightId) span).2 }
      (.binary symbol tree rightTree) (taken ++ operator :: rightTaken) more := by
  have further := (State.grows_advance part.grows.closed).trans operand.grows
  have depicts := depicts_binary
    (part.depicts.extends further.extended part.grows.closed)
    operand.depicts symbol
  have closed := operand.grows.closed
  have children : ∀ child ∈ (Expr.binary symbol id rightId).children,
      second.arena.Has (.expr child) :=
    fun child member => depicts.stored _ (List.mem_map_of_mem member)
  exact {
    split := by rw [part.split, operand.split]; simp
    inOrder := .binary joins part.inOrder operand.inOrder
    ranked := ⟨loose, operand.admits, part.ranked, operand.ranked⟩
    admits := tight
    depicts := closed.depicts_addExpr depicts span
    grows := (part.grows.trans further).trans
      ⟨closed.addExpr children span, Arena.extends_addExpr _ _ _, rfl⟩
    ends := operand.ends
    front := operand.front
    isLinks := operand.isLinks
    free := operand.free
    unambiguous := fun unambiguous =>
      part.unambiguous ⟨part.free, operand.unambiguous unambiguous⟩ }

variable [∀ goal, Steady (sub goal)] {stop : Token}

/-- The operators behind what has been read of a chain are joined to it from
left to right, each with the operators behind it that bind more tightly. -/
theorem binaryRest_chain {size : Nat} (reads : ReadsOperands sub size)
    (stops : continues stop.kind = false) {bound : Nat}
    (enough : left.length < bound) (small : left.length ≤ size)
    (part : ReadsPart start chain (stop :: tail) least id state tree taken left)
    (follows : NextOperator tree.admits left) :
    ReadsChain start chain (stop :: tail) least state
      (binaryRest sub least bound id) := by
  induction bound generalizing id state tree taken left with
  | zero => exact absurd enough (Nat.not_lt_zero _)
  | succ bound inductionHypothesis =>
      rcases part.isLinks with _ | @⟨operator, operand, others, symbol, _, joins,
        stands, more⟩
      · have found := State.current_of_front part.front
        obtain ⟨noOperator, noCast, _⟩ := continues_eq_false stops
        refine .inl ⟨id, state, tree, taken, [], ?_, part, nofun⟩
        exact binaryRest_stop sub (by rw [found]) noCast (by simp [noOperator]) bound
      have found := State.current_of_front part.front
      have noCast := isKeyword_operator joins .asWord
      rcases Nat.lt_or_ge symbol.precedence least with loose | tight
      · refine .inl ⟨id, state, tree, taken, _, ?_, part, by simp [NextOperator,
          joins, loose]⟩
        exact binaryRest_stop sub (by rw [found]) noCast (by simp [joins, loose]) bound
      have before : BeforeChain state.advance operand others stop tail := {
        ends := (State.passes_advance state).ends part.ends
        closed := (State.grows_advance part.grows.closed).closed
        stands := ⟨_, stands⟩
        isLinks := more
        stops
        front := State.rest_advance part.front }
      simp only [List.length_cons] at enough small
      unfold binaryRest
      refine .inspect ?_
      rw [found, noCast, Bool.false_and]
      refine .inspect ?_
      rw [found, joins]
      simp only
      rw [if_neg (Nat.not_lt.mpr tight)]
      refine .leads rfl ?_
      rcases reads state.advance operand others stop tail (symbol.precedence + 1)
        (by omega) before with
        ⟨rightId, second, rightTree, rightTaken, remaining, leaves, right,
          looser⟩ | ⟨ambiguous, strays⟩
      · have shorter := congrArg List.length right.split
        simp only [List.length_cons, List.length_append] at shorter
        refine .leads leaves (.inspect (.inspect (.leads rfl ?_)))
        refine inductionHypothesis ?_ ?_
          (part.join joins tight (follows operator rfl symbol joins) right _) ?_
        · omega
        · omega
        · intro token member other joinsNext
          exact Nat.le_of_lt_succ (looser token member other joinsNext)
      · refine .inr ⟨fun unambiguous => ambiguous ?_, strays.bind inferInstance⟩
        rw [part.split] at unambiguous
        exact unambiguous.behind.2

/-- An operand is read by itself, unless a `<` behind it is ambiguous. -/
theorem unary_chain {operand : Token} {links : List Token}
    {leaf : ExprTree}
    (before : BeforeChain state operand links stop tail)
    (stands : operandTree? operand.kind = some leaf) :
    (∃ first later, Leaves state (unary sub) first later ∧
      ReadsPart state (operand :: links) (stop :: tail) least first later leaf
        [operand] links) ∨
    ¬ Unambiguous (stop :: tail) (operand :: links) ∧
      Strays state (unary sub) (stop :: tail).length := by
  obtain ⟨admits, ranked⟩ := leaf_operand stands
  obtain ⟨first, later, read, front, grows, depicts⟩ :=
    primary_operand sub before.closed before.front stands
  have ends := (Steady.of_state read).ends before.ends
  have found := State.current_of_front before.front
  unfold unary
  rcases accesses_links sub ends before.isLinks before.stops front
    later.rest.length first with ⟨free, leaves⟩ | ⟨ambiguous, strays⟩
  · refine .inl ⟨first, later, .inspect ?_, ?_⟩
    · rw [found, unaryOperator?_operand stands]
      exact .bind read (.inspect leaves)
    · exact {
        split := rfl
        inOrder := .operand stands
        ranked, admits := admits least, depicts, grows, ends, front, free
        isLinks := before.isLinks
        unambiguous := fun unambiguous =>
          ⟨fun ambiguous => kind_ne_of_some stands rfl ambiguous.1, unambiguous⟩ }
  · refine .inr ⟨fun unambiguous => ambiguous unambiguous.2.headFree, .inspect ?_⟩
    rw [found, unaryOperator?_operand stands]
    exact .leads read (.inspect strays)

/-- The first operand of a chain is read, and then what is joined to it. -/
theorem binary_chain {size : Nat} (reads : ReadsOperands sub size)
    {operand : Token} {links : List Token} (small : links.length ≤ size)
    (before : BeforeChain state operand links stop tail) (least : Nat) :
    ReadsChain state (operand :: links) (stop :: tail) least state
      (binary sub least) := by
  obtain ⟨leaf, stands⟩ := before.stands
  rcases unary_chain sub before stands with
    ⟨first, later, leaves, part⟩ | ⟨ambiguous, strays⟩
  · refine .leads leaves (.inspect ?_)
    refine binaryRest_chain sub reads before.stops ?_ small part ?_
    · rw [part.front, List.length_append]
      omega
    · exact fun _ _ _ _ => (leaf_operand stands).1 _
  · exact .inr ⟨ambiguous, strays.bind inferInstance⟩

end

theorem readsOperands_goalAt (bound : Nat) :
    ReadsOperands (goalAt bound) bound := by
  induction bound with
  | zero => exact fun _ _ _ _ _ _ small => absurd small (Nat.not_lt_zero _)
  | succ bound inductionHypothesis =>
      intro state operand links stop tail least small before
      exact binary_chain _ inductionHypothesis (Nat.le_of_lt_succ small) before least

/-! ## Whole chains -/

section

variable {state : State} {operand stop : Token} {links tail : List Token}

/-- A parser reads a chain and nothing behind it, or it goes past the chain or
fails, where a `<` is ambiguous. -/
def ReadsWhole (state : State) (chain tail : List Token)
    (parser : Parse ExprId) : Prop :=
  (∃ id later tree, Leaves state parser id later ∧
    ReadsPart state chain tail 1 id later tree chain []) ∨
  ¬ Unambiguous tail chain ∧ Strays state parser tail.length

/-- Every operator binds tightly enough for a condition. -/
theorem nil_of_looser {left : List Token} (isLinks : Links left)
    (looser : NextOperator (· < 1) left) : left = [] := by
  cases isLinks with
  | nil => rfl
  | @cons operator _ _ symbol _ joins _ _ =>
      have none := looser operator rfl symbol joins
      cases symbol <;> exact absurd none (by decide)

/-- Neither a conditional nor an assignment goes on behind a chain. -/
theorem assignment_chain {bound : Nat} (enough : links.length ≤ bound)
    (before : BeforeChain state operand links stop tail) :
    ReadsWhole state (operand :: links) (stop :: tail)
      (assignment (goalAt bound)) := by
  unfold assignment conditional
  rcases binary_chain _ (readsOperands_goalAt bound) enough before 1 with
    ⟨id, later, tree, taken, left, leaves, part, looser⟩ | ⟨ambiguous, strays⟩
  · obtain rfl := nil_of_looser part.isLinks looser
    have found := State.current_of_front part.front
    obtain ⟨_, _, noAssignment, noQuestion⟩ := continues_eq_false before.stops
    have whole : taken = operand :: links := by simpa using part.split.symm
    have noBranches : Leaves later (eatSymbol .question) false later := by
      refine .inspect ?_
      rw [found, noQuestion]
      exact .pure
    refine .inl ⟨id, later, tree, ?_, whole ▸ part⟩
    refine .bind (.bind leaves (.bind noBranches .pure)) (.inspect ?_)
    rw [found, noAssignment]
    exact .pure
  · refine .inr ⟨ambiguous, .bind (strays.bind inferInstance) fun target => ?_⟩
    refine .bind fun kind => ?_
    split <;> infer_instance

/-- One level deeper a chain is read in the same way. -/
theorem expression_chain (before : BeforeChain state operand links stop tail)
    (shallow : state.depth < nestingLimit) :
    Unambiguous (stop :: tail) (operand :: links) ∧
      (∃ id later tree, Leaves state expression id later ∧
        later.rest = stop :: tail ∧ later.diagnostics = state.diagnostics ∧
        later.arena.Depicts id tree ∧ InOrder tree (operand :: links) ∧
        tree.Ranked) ∨
    ¬ Unambiguous (stop :: tail) (operand :: links) ∧
      Strays state expression (stop :: tail).length := by
  have deeper : BeforeChain { state with depth := state.depth + 1 } operand links
      stop tail :=
    ⟨before.ends, before.closed, before.stands, before.isLinks, before.stops,
      before.front⟩
  have enough : links.length ≤ state.rest.length := by
    rw [before.front]
    simp only [List.length_append, List.length_cons]
    omega
  have unfolded : expression state =
      nested (assignment (goalAt state.rest.length)) state := rfl
  rw [nested, if_neg (Nat.not_le.mpr shallow)] at unfolded
  rcases assignment_chain enough deeper with
    ⟨id, later, tree, leaves, part⟩ | ⟨ambiguous, strays⟩
  · rw [leaves] at unfolded
    exact .inl ⟨part.unambiguous trivial, id, _, tree, unfolded, part.front,
      part.grows.silent, part.depicts, part.inOrder, part.ranked⟩
  · refine .inr ⟨ambiguous, fun id last ran => ?_⟩
    rcases parsed : assignment (goalAt state.rest.length)
      { state with depth := state.depth + 1 } with ⟨result, later⟩
    rw [parsed] at unfolded
    cases unfolded.symm.trans ran
    exact strays id later parsed

/-- In a list without parentheses no angles close before a call, if the token
behind it stands in no type arguments. -/
theorem closes_wall {chain : List Token}
    (free : ∀ token ∈ chain, token.kind ≠ .symbol .openParen)
    (wall : isFlat stop.kind = false) (other : stop.kind ≠ .symbol .openParen)
    (depth : Int) :
    closes depth ((chain ++ stop :: tail).map Token.kind) = false := by
  refine Bool.eq_false_iff.mpr fun closed => ?_
  induction chain generalizing depth with
  | nil =>
      obtain ⟨change, flat, _⟩ := (closes_cons _ _ _).mp closed
      rw [isFlat, flat] at wall
      cases wall
  | cons token rest inductionHypothesis =>
      obtain ⟨_, free⟩ := List.forall_mem_cons.mp free
      obtain ⟨change, _, ⟨_, opens⟩ | ⟨_, closed⟩⟩ :=
        (closes_cons _ _ _).mp closed
      · cases rest with
        | nil => exact other (Option.some.inj opens)
        | cons next rest => exact free next (by simp) (Option.some.inj opens)
      · exact inductionHypothesis free _ closed

theorem unambiguous_of_wall {chain : List Token}
    (free : ∀ token ∈ chain, token.kind ≠ .symbol .openParen)
    (wall : isFlat stop.kind = false) (other : stop.kind ≠ .symbol .openParen) :
    Unambiguous (stop :: tail) chain := by
  induction chain with
  | nil => trivial
  | cons token rest inductionHypothesis =>
      obtain ⟨_, free⟩ := List.forall_mem_cons.mp free
      refine ⟨fun ambiguous => ?_, inductionHypothesis free⟩
      exact Bool.false_ne_true ((closes_wall free wall other 1).symm.trans
        (ambiguous_iff.mp ambiguous).2)

/-- An expression is read as a tree without a fault, up to some tokens. -/
def ReadsAs (state : State) (tail : List Token) (tree : ExprTree) : Prop :=
  ∃ id later, expression state = (some id, later) ∧ later.rest = tail ∧
    later.diagnostics = state.diagnostics ∧ later.arena.Depicts id tree

/-- A chain that is read up to the token behind it has no ambiguous `<`. -/
theorem ReadsAs.unambiguous {tree : ExprTree}
    (readsAs : ReadsAs state (stop :: tail) tree)
    (before : BeforeChain state operand links stop tail)
    (shallow : state.depth < nestingLimit) :
    Unambiguous (stop :: tail) (operand :: links) := by
  obtain ⟨id, later, ran, front, -, -⟩ := readsAs
  rcases expression_chain before shallow with
    ⟨unambiguous, -⟩ | ⟨-, strays⟩
  · exact unambiguous
  · have shorter := strays id later ran
    rw [front] at shorter
    exact absurd shorter (Nat.lt_irrefl _)

/-- Chains of operators are read as their ranked trees. A chain has exactly one
such tree. It is read without a fault, and the token behind the chain is left,
where no `<` of the chain opens type arguments of a call or seems to. This is so
wherever that token stands in no type arguments, as a semicolon or a closing
parenthesis. A `<` that opens type arguments is not read as an operator, and so
is one that looking ahead takes to open some where there are no types. -/
theorem expression_reads_chain
    (before : BeforeChain state operand links stop tail)
    (shallow : state.depth < nestingLimit) :
    ∃ tree,
      (∀ other, InOrder other (operand :: links) ∧ other.Ranked ↔
        other = tree) ∧
      (¬ Somewhere OpensTypes (stop :: tail) (operand :: links) →
        ¬ Somewhere MimicsTypes (stop :: tail) (operand :: links) →
          ReadsAs state (stop :: tail) tree) ∧
      (isFlat stop.kind = false →
        ¬ Somewhere OpensTypes (stop :: tail) (operand :: links) ∧
          ¬ Somewhere MimicsTypes (stop :: tail) (operand :: links)) ∧
      (Somewhere OpensTypes (stop :: tail) (operand :: links) →
        ¬ ReadsAs state (stop :: tail) tree) ∧
      (Somewhere MimicsTypes (stop :: tail) (operand :: links) →
        ¬ ReadsAs state (stop :: tail) tree) := by
  obtain ⟨leaf, stands⟩ := before.stands
  obtain ⟨tree, inOrder, ranked⟩ := before.isLinks.exists_ranked
    (.operand stands) (leaf_operand stands).2
  refine ⟨tree, fun other => ⟨fun also => ?unique, fun same => ?isRanked⟩,
    fun noTypes noMimics => ?reads, fun wall => unambiguous_iff.mp ?wall,
    fun opens readsAs => ?opens, fun mimics readsAs => ?mimics⟩
  case unique => exact also.1.unique also.2 inOrder ranked
  case isRanked => exact same ▸ ⟨inOrder, ranked⟩
  case reads =>
    have unambiguous := unambiguous_iff.mpr ⟨noTypes, noMimics⟩
    obtain ⟨_, id, later, found, leaves, front, silent, depicts, isOrder,
      isRanked⟩ := (expression_chain before shallow).resolve_right
        fun strays => strays.1 unambiguous
    cases isOrder.unique isRanked inOrder ranked
    exact ⟨id, later, leaves, front, silent, depicts⟩
  case wall =>
    have free : ∀ token ∈ operand :: links, token.kind ≠ .symbol .openParen :=
      List.forall_mem_cons.mpr
        ⟨kind_ne_of_some stands rfl, links_free before.isLinks⟩
    refine unambiguous_of_wall free wall fun opens => ?_
    have stops := before.stops
    rw [opens] at stops
    cases stops
  case opens =>
    exact (unambiguous_iff.mp (readsAs.unambiguous before shallow)).1 opens
  case mimics =>
    exact (unambiguous_iff.mp (readsAs.unambiguous before shallow)).2 mimics

end

/-- A token without a place. -/
abbrev bare (kind : TokenKind) : Token :=
  ⟨kind, .point .first⟩

/-- In front of `a < b * c;`. -/
def comparedProduct : State :=
  stateBefore [.identifier "a", .symbol .less, .identifier "b", .symbol .star,
    .identifier "c", .symbol .semicolon, .endOfFile]

/-- In front of `a < b, c > (d)]`. -/
def comparedPair : State :=
  stateBefore [.identifier "a", .symbol .less, .identifier "b", .symbol .comma,
    .identifier "c", .symbol .greater, .symbol .openParen, .identifier "d",
    .symbol .closeParen, .symbol .closeBracket, .endOfFile]

theorem comparedProduct_beforeChain :
    BeforeChain comparedProduct (bare (.identifier "a"))
      [bare (.symbol .less), bare (.identifier "b"), bare (.symbol .star),
        bare (.identifier "c")]
      (bare (.symbol .semicolon)) [bare .endOfFile] where
  ends := rfl
  closed := Arena.closed_empty
  stands := ⟨_, rfl⟩
  isLinks := .cons rfl rfl (.cons rfl rfl .nil)
  stops := rfl
  front := rfl

/-- The chain in `a < b * c;` is read as a comparison with a product. -/
theorem expression_reads_comparedProduct :
    ∃ id later, expression comparedProduct = (some id, later) ∧
      later.rest = [bare (.symbol .semicolon), bare .endOfFile] ∧
      later.diagnostics = comparedProduct.diagnostics ∧
      later.arena.Depicts id (.binary .less (.identifier "a")
        (.binary .multiply (.identifier "b") (.identifier "c"))) := by
  obtain ⟨tree, isTree, reads, wall, -, -⟩ :=
    expression_reads_chain comparedProduct_beforeChain (by decide)
  obtain ⟨noTypes, noMimics⟩ := wall rfl
  have inOrder : InOrder (.binary .less (.identifier "a")
      (.binary .multiply (.identifier "b") (.identifier "c")))
      [bare (.identifier "a"), bare (.symbol .less), bare (.identifier "b"),
        bare (.symbol .star), bare (.identifier "c")] :=
    @InOrder.binary _ _ _ _ [_] _ rfl (.operand rfl)
      (@InOrder.binary _ _ _ _ [_] _ rfl (.operand rfl) (.operand rfl))
  cases (isTree _).mp ⟨inOrder, by
    simp [ExprTree.Ranked, ExprTree.admits, BinaryOperator.precedence]⟩
  exact reads noTypes noMimics

/-- What stands behind the comma in `a < b, c > (d)]`. -/
def behindComma : List Token :=
  [bare (.identifier "c"), bare (.symbol .greater), bare (.symbol .openParen),
    bare (.identifier "d"), bare (.symbol .closeParen),
    bare (.symbol .closeBracket), bare .endOfFile]

theorem comparedPair_opensTypes :
    Somewhere OpensTypes (bare (.symbol .comma) :: behindComma)
      [bare (.identifier "a"), bare (.symbol .less),
        bare (.identifier "b")] := by
  have name (word : String) : SpellsType .whole [.identifier word] :=
    .array 0 (@SpellsType.name (.identifier word) [] (by simp [isTypeWord]))
  refine ⟨[bare (.identifier "a")], _, [bare (.identifier "b")], rfl, rfl,
    [.identifier "b", .symbol .comma, .identifier "c"],
    [.identifier "d", .symbol .closeParen, .symbol .closeBracket, .endOfFile],
    rfl, rfl, ?_⟩
  exact .cons (name "b") (.single (name "c"))

/-- The chain in front of the comma in `a < b, c > (d)]` is not read: all up to
the bracket is read as a call with two types. -/
theorem expression_passes_comparedPair :
    BeforeChain comparedPair (bare (.identifier "a"))
      [bare (.symbol .less), bare (.identifier "b")] (bare (.symbol .comma))
      behindComma ∧
    Somewhere OpensTypes (bare (.symbol .comma) :: behindComma)
      [bare (.identifier "a"), bare (.symbol .less), bare (.identifier "b")] ∧
    comparedPair.depth < nestingLimit ∧
    (expression comparedPair).1.isSome = true ∧
    (expression comparedPair).2.rest =
      [bare (.symbol .closeBracket), bare .endOfFile] := by
  refine ⟨⟨rfl, Arena.closed_empty, ⟨_, rfl⟩, .cons rfl rfl .nil, rfl, rfl⟩,
    comparedPair_opensTypes, by decide, by decide, ?_⟩
  rfl

end PluginSurface.Grammar
