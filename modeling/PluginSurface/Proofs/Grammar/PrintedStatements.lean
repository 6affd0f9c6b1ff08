import PluginSurface.Proofs.Grammar.ParsedStatements
import PluginSurface.Proofs.Grammar.PrintedExpressions

/-!
# Statements as they are printed

The tokens of a printable statement are read as that statement. An `else` is
read with the nearest `if` that has none, so a statement that could take it up
must not stand in front of one.
-/

namespace PluginSurface

open Grammar

/-! ## Tokens behind types -/

theorem TypeShape.endsBefore_of_symbol {mark : Symbol}
    (free : mark ≠ .openBracket ∧ mark ≠ .dot ∧ mark ≠ .less ∧ mark ≠ .pipe)
    (type : TypeShape) (after : List TokenKind) :
    type.EndsBefore (.symbol mark :: after) where
  dot := by simpa using free.2.1
  bracket := by simpa using free.1
  angle _ := by simpa using free.2.2.1
  null _ := by cases mark <;> simp_all [StartsNullable]

namespace Grammar

/-- Tokens that stand behind the type of something that is declared. -/
def endsType : TokenKind → Bool
  | .symbol .equal | .symbol .semicolon | .symbol .comma
  | .symbol .closeParen | .symbol .openBrace => true
  | _ => false

def TypeEnded (after : List TokenKind) : Prop :=
  ∃ kind ∈ after.head?, endsType kind = true

theorem TypeEnded.of_head {after : List TokenKind} {kind : TokenKind}
    (head : after.head? = some kind) (ends : endsType kind = true) :
    TypeEnded after :=
  ⟨kind, head, ends⟩

theorem TypeEnded.ends {after : List TokenKind} (ended : TypeEnded after) :
    after.head? ≠ some (.symbol .colon) ∧
      ∀ type : TypeShape, type.EndsBefore after := by
  obtain ⟨kind, head, ends⟩ := ended
  cases after with
  | nil => cases head
  | cons first rest =>
      cases head
      cases kind with
      | symbol mark =>
          refine ⟨fun same => ?_, fun type => type.endsBefore_of_symbol ?_ rest⟩
          · cases same
            cases ends
          · cases mark <;> first | decide | cases ends
      | _ => cases ends

/-- An initial value starts with an equals sign. -/
theorem TypeEnded.initialized {after : List TokenKind} (ended : TypeEnded after)
    (value : Option ExprTree) :
    TypeEnded (ExprTree.initializedKinds value ++ after) := by
  cases value with
  | none => exact ended
  | some value => exact .of_head rfl rfl

/-! ## States between statements -/

/-- A parser stands outside of all expressions, and there is room for further
faults. -/
structure State.Outside (state : State) : Prop where
  ready : state.Ready
  flat : state.depth = 0
  room : state.diagnostics.isFull = false

variable {state : State} {rest : List TokenKind}

theorem State.Outside.onward {later : State} (outside : state.Outside)
    (reaches : state.Reaches later) : later.Outside where
  ready := reaches.ready
  flat := reaches.depth.trans outside.flat
  room := by rw [reaches.silent, outside.room]

/-- What was read depicts a tree, and some tokens are left. -/
def Renders {Node Tree : Type} [Depicted Node Tree] (tree : Tree)
    (rest : List TokenKind) (node : Node) (later : State) : Prop :=
  later.arena.Depicts node tree ∧ later.kinds = rest

/-! ## Parts of statements -/

theorem gives_optionalSemicolon (ready : state.Ready)
    (kinds : state.kinds = .symbol .semicolon :: rest) :
    Gives state optionalSemicolon fun _ later => later.kinds = rest := by
  change Gives state (eatSymbol .semicolon >>= fun _ => pure ()) _
  exact .eatSymbol ready kinds fun _ reaches onward =>
    .pure reaches.ready onward

theorem gives_optionalType {type : Option TypeShape}
    (grammatical : ∀ shape ∈ type, shape.Grammatical)
    (printable : type.all TypeShape.isPrintable = true) (ready : state.Ready)
    (kinds : state.kinds = typedKinds type ++ rest) (ended : TypeEnded rest) :
    Gives state optionalType fun result later =>
      result.map TypeExpr.shape = type ∧ later.kinds = rest := by
  obtain ⟨notColon, ends⟩ := ended.ends
  cases type with
  | none =>
      refine .leaveSymbol ready ?_ (.pure ready ⟨rfl, kinds⟩)
      rw [kinds]
      exact notColon
  | some shape =>
      refine .eatSymbol ready kinds fun later reaches onward => ?_
      refine .bind (gives_typeExpr (grammatical shape rfl) printable
        reaches.ready onward (ends shape)) ?_
      rintro result last further ⟨rfl, left⟩
      exact .pure further.ready ⟨rfl, left⟩

theorem gives_optionalInitializer {value : Option ExprTree}
    (standalone : ∀ tree ∈ value, tree.Standalone)
    (prints : value.all ExprTree.printsAlone = true) (ready : state.Ready)
    (flat : state.depth = 0)
    (kinds : state.kinds = ExprTree.initializedKinds value ++ rest)
    (ended : Ended rest) (inert : Inert rest) :
    Gives state optionalInitializer
      (Renders (value.map ExprTree.guarded) rest) := by
  cases value with
  | none =>
      refine .leaveSymbol ready ?_ (.pure ready ⟨.none, kinds⟩)
      rw [kinds]
      intro same
      obtain ⟨kind, head, ends⟩ := ended
      cases head.symm.trans same
      cases ends
  | some tree =>
      refine .eatSymbol ready kinds fun later reaches onward => ?_
      refine .bind (gives_standalone (standalone tree rfl) prints reaches.ready
        (reaches.depth.trans flat) onward ended inert) ?_
      rintro id last further ⟨depicts, left⟩
      exact .pure further.ready ⟨depicts.some, left⟩

/-- An expression in front of a closing parenthesis or a semicolon. -/
theorem gives_valueBefore {tree : ExprTree} {mark : Symbol}
    (ends : endsExpression (.symbol mark) = true)
    (isWall : (TokenKind.symbol mark).isWall = true)
    (standalone : tree.Standalone) (prints : tree.printsAlone = true)
    (outside : state.Outside)
    (kinds : state.kinds = tree.kinds ++ .symbol mark :: rest) :
    Gives state expression (Shows tree (.symbol mark :: rest)) :=
  gives_standalone standalone prints outside.ready outside.flat kinds
    (.of_head rfl ends) (.wall isWall rest)

/-- An expression with the semicolon behind it. -/
theorem gives_valueAndSemicolon {Next : Type} {tree : ExprTree}
    {next : ExprId → Parse Next} {after : Next → State → Prop}
    (standalone : tree.Standalone) (prints : tree.printsAlone = true)
    (outside : state.Outside)
    (kinds : state.kinds = tree.kinds ++ .symbol .semicolon :: rest)
    (second : ∀ id later, state.Reaches later →
      Renders tree.guarded rest id later → Gives later (next id) after) :
    Gives state
      (do
        let value ← expression
        optionalSemicolon
        next value) after := by
  refine .bind (gives_valueBefore rfl rfl standalone prints outside kinds) ?_
  rintro id later reaches ⟨depicts, onward⟩
  refine .bind (gives_optionalSemicolon reaches.ready onward) ?_
  intro _ last further left
  exact second id last (reaches.trans further)
    ⟨depicts.extends further.extended reaches.ready.closed, left⟩

/-! ## Starts of statements -/

end Grammar

namespace ExprTree

/-- The operand that an expression starts with. -/
def leading : ExprTree → ExprTree
  | call callee _ _ => callee.leading
  | member target _ => target.leading
  | index target _ => target.leading
  | binary _ left _ => left.leading
  | assign _ target _ => target.leading
  | conditional condition _ _ => condition.leading
  | cast operand _ => operand.leading
  | tree => tree

/-- Expressions in which no operand comes first. -/
def isLeading : ExprTree → Bool
  | call .. | member .. | index .. | binary .. | assign .. | conditional ..
  | cast .. => false
  | _ => true

theorem isLeading_leading (tree : ExprTree) : tree.leading.isLeading = true := by
  fun_induction leading tree with
  | case8 tree => cases tree <;> simp_all [isLeading]
  | _ => assumption

theorem isPrintable_leading {tree : ExprTree}
    (printable : tree.isPrintable = true) :
    tree.leading.isPrintable = true := by
  fun_induction leading tree <;> simp_all [isPrintable]

theorem exists_kinds_eq (tree : ExprTree) :
    ∃ more, tree.kinds = tree.leading.kinds ++ more := by
  fun_induction leading tree with
  | case8 => exact ⟨[], by simp⟩
  | _ =>
    next inductionHypothesis =>
      obtain ⟨more, same⟩ := inductionHypothesis
      exact ⟨_, by simp only [kinds, same, List.append_assoc]; rfl⟩

theorem head?_kinds_leading (tree : ExprTree) :
    tree.leading.kinds.head? = tree.kinds.head? := by
  obtain ⟨more, same⟩ := tree.exists_kinds_eq
  rw [same, head?_kinds_append]

/-- A printable expression does not go on behind an `if`. -/
theorem head?_kinds_ne_else {tree : ExprTree}
    (printable : tree.isPrintable = true) :
    tree.kinds.head? ≠ some (.keyword .elseWord) := by
  have leads := tree.isLeading_leading
  have named := isPrintable_leading printable
  rw [← head?_kinds_leading]
  generalize tree.leading = first at leads named
  cases first with
  | identifier name =>
      intro same
      rcases ofWord_cases name with ⟨word, found, _, reserved⟩ | ⟨_, plain⟩
      · cases (congrArg some reserved).symm.trans same
        simp [isPrintable, isName, found, Keyword.isContextual] at named
      · cases (congrArg some plain).symm.trans same
  | bool value => cases value <;> simp [kinds]
  | call | member | index | binary | assign | conditional | cast => cases leads
  | _ => simp [kinds]

end ExprTree

namespace StmtTree

/-- A statement starts neither like the end of a block or of a file nor like
what goes on behind an `if`. -/
theorem starts_kinds {tree : StmtTree} (printable : tree.isPrintable = true) :
    ∃ kind ∈ tree.kinds.head?, kind ≠ .symbol .closeBrace ∧
      kind ≠ .endOfFile ∧ kind ≠ .keyword .elseWord := by
  cases tree with
  | expression value =>
      obtain ⟨kind, head, notBrace, notEnd⟩ :=
        opens_kinds value .closeBrace rfl
      refine ⟨kind, ?_, notBrace, notEnd, ?_⟩
      · rwa [kinds, ExprTree.head?_kinds_append]
      · rintro rfl
        exact ExprTree.head?_kinds_ne_else
          (ExprTree.printsAlone_iff.mp printable).1 head
  | branch condition whenTrue whenFalse =>
      cases whenFalse <;> exact ⟨_, rfl, nofun, nofun, nofun⟩
  | «return» value =>
      cases value <;> exact ⟨_, rfl, nofun, nofun, nofun⟩
  | binding kind => cases kind <;> exact ⟨_, rfl, nofun, nofun, nofun⟩
  | _ => exact ⟨_, rfl, nofun, nofun, nofun⟩

end StmtTree

namespace Grammar

variable {state : State} {rest : List TokenKind}

/-! ## Statements -/

/-- How a statement is read back. -/
def PrintedStatement (tree : StmtTree) : Prop :=
  ∀ ⦃bound : Nat⦄ ⦃state : State⦄ ⦃rest : List TokenKind⦄, state.Outside →
    state.kinds = tree.kinds ++ rest → state.kinds.length < bound →
    (tree.isOpenEnded = true → rest.head? ≠ some (.keyword .elseWord)) →
      Gives state (statementAt bound) (Renders tree.guarded rest)

/-- How it is read back before it is stored. -/
def PrintedStatementNode (tree : StmtTree) : Prop :=
  ∀ ⦃bound : Nat⦄ ⦃state : State⦄ ⦃rest : List TokenKind⦄, state.Outside →
    state.kinds = tree.kinds ++ rest → state.kinds.length ≤ bound →
    (tree.isOpenEnded = true → rest.head? ≠ some (.keyword .elseWord)) →
      Gives state (statementNode (statementAt bound))
        (Renders tree.guarded rest)

theorem PrintedStatementNode.printed {tree : StmtTree}
    (printed : PrintedStatementNode tree) : PrintedStatement tree := by
  intro bound state rest outside kinds enough closed
  obtain ⟨bound, rfl⟩ := Nat.exists_eq_succ_of_ne_zero
    (Nat.ne_zero_of_lt enough)
  refine .inspect (.bind (printed outside kinds (Nat.le_of_lt_succ enough)
    closed) ?_)
  rintro node later reaches ⟨depicts, onward⟩
  refine .spanFrom fun span => (Gives.addStmt reaches.ready depicts).imp ?_
  rintro id last _ ⟨shown, same⟩
  exact ⟨shown, same.trans onward⟩

/-! ### Blocks -/

/-- What stands behind a statement of a block is no `else`. -/
theorem head?_statements_ne_else {trees : List StmtTree}
    (printable : StmtTree.arePrintable trees = true) (rest : List TokenKind) :
    (StmtTree.kindsOfAll trees ++ .symbol .closeBrace :: rest).head? ≠
      some (.keyword .elseWord) := by
  cases trees with
  | nil => nofun
  | cons tree others =>
      simp only [StmtTree.arePrintable, Bool.and_eq_true] at printable
      obtain ⟨kind, head, _, _, notElse⟩ := StmtTree.starts_kinds printable.1
      rw [StmtTree.kindsOfAll, List.append_assoc, List.head?_append,
        Option.mem_def.mp head]
      exact fun same => notElse (Option.some.inj same)

theorem gives_statementsUntilBrace {trees : List StmtTree} {limit : Nat}
    (printed : ∀ tree ∈ trees, PrintedStatement tree)
    (printable : StmtTree.arePrintable trees = true) {bound : Nat}
    {state : State} (outside : state.Outside)
    (kinds : state.kinds =
      StmtTree.kindsOfAll trees ++ .symbol .closeBrace :: rest)
    (enough : state.kinds.length < limit)
    (more : state.kinds.length < bound) :
    Gives state (statementsUntilBrace (statementAt limit) bound)
      (Renders (StmtTree.allGuarded trees) (.symbol .closeBrace :: rest)) := by
  induction trees generalizing bound state with
  | nil =>
      obtain ⟨bound, rfl⟩ := Nat.exists_eq_succ_of_ne_zero
        (Nat.ne_zero_of_lt more)
      refine .inspect (.inspect (.inspect (.isTrue ?_
        (.pure outside.ready ⟨.nil, kinds⟩))))
      rw [outside.ready.current_kind kinds]
      rfl
  | cons tree others inductionHypothesis =>
      obtain ⟨bound, rfl⟩ := Nat.exists_eq_succ_of_ne_zero
        (Nat.ne_zero_of_lt more)
      obtain ⟨first, later⟩ := List.forall_mem_cons.mp printed
      simp only [StmtTree.arePrintable, Bool.and_eq_true] at printable
      rw [StmtTree.kindsOfAll, List.append_assoc] at kinds
      obtain ⟨kind, head, notBrace, notEnd, _⟩ :=
        StmtTree.starts_kinds printable.1
      obtain ⟨front, shape⟩ := List.head?_eq_some_iff.mp head
      have current : state.current.kind = kind := by
        rw [State.current_eq outside.ready, kinds, shape]
        rfl
      refine .inspect (.inspect (.inspect (.isFalse ?_ (.inspect ?_))))
      · have other := mt isSymbol_iff.mp notBrace
        have further := mt isEndOfFile_iff.mp notEnd
        simp [current, outside.room, other, further]
      refine .bind (Gives.attempt (first outside kinds enough fun _ =>
        head?_statements_ne_else printable.2 rest)) ?_
      rintro _ second reaches ⟨id, rfl, depicts, onward⟩
      have fewer : second.kinds.length < state.kinds.length := by
        rw [kinds, shape, onward]
        simp only [List.length_append, List.length_cons]
        omega
      refine .bind (inductionHypothesis later printable.2
        (outside.onward reaches) onward (by omega) (by omega)) ?_
      rintro ids last further ⟨othersDepict, left⟩
      have stored := depicts.extends further.extended reaches.ready.closed
      exact .pure further.ready ⟨stored.cons othersDepict, left⟩

theorem gives_blockOf {trees : List StmtTree} {limit : Nat}
    (printed : ∀ tree ∈ trees, PrintedStatement tree)
    (printable : StmtTree.arePrintable trees = true) (outside : state.Outside)
    (kinds : state.kinds = .symbol .openBrace ::
      (StmtTree.kindsOfAll trees ++ .symbol .closeBrace :: rest))
    (enough : state.kinds.length ≤ limit) :
    Gives state (blockOf (statementAt limit))
      (Renders (StmtTree.allGuarded trees) rest) := by
  refine .inspect (.bind (.expectSymbol outside.ready kinds) ?_)
  intro _ later reaches onward
  have fewer := fewer_tail kinds enough onward
  refine .inspect (.bind (gives_statementsUntilBrace printed printable
    (outside.onward reaches) onward fewer ?_) ?_)
  · rw [State.kinds_length]
    exact Nat.lt_succ_self _
  rintro ids second further ⟨depicts, left⟩
  refine .bind (.expectSymbol further.ready left) fun _ last final remaining => ?_
  have stored := depicts.extends final.extended further.ready.closed
  refine .spanFrom fun span => .pure final.ready
    ⟨⟨fun point member => stored.stored point ?_, stored.shown⟩, remaining⟩
  simpa [Depicted.points, Block.points, eq_comm] using member

/-! ### Single statements -/

theorem printedStatement_block {trees : List StmtTree}
    (printed : ∀ tree ∈ trees, PrintedStatement tree)
    (printable : StmtTree.arePrintable trees = true) :
    PrintedStatementNode (.block trees) := by
  intro bound state rest outside kinds enough _
  have inside : state.kinds = .symbol .openBrace ::
      (StmtTree.kindsOfAll trees ++ .symbol .closeBrace :: rest) := by
    rw [kinds]
    simp [StmtTree.kinds]
  refine .current outside.ready inside ?_
  refine .bind (gives_blockOf printed printable outside inside enough) ?_
  rintro block later reaches ⟨depicts, onward⟩
  exact .pure reaches.ready ⟨⟨depicts.stored,
    congrArg StmtTree.block depicts.shown⟩, onward⟩

/-- A name, a type and an initial value with the semicolon behind them. -/
theorem gives_binding {Next : Type} {name : String} {type : Option TypeShape}
    {value : Option ExprTree}
    {next : Name → Option TypeExpr → Option ExprId → Parse Next}
    {after : Next → State → Prop} (named : isName name = true)
    (grammatical : ∀ shape ∈ type, shape.Grammatical)
    (standalone : ∀ tree ∈ value, tree.Standalone)
    (typePrintable : type.all TypeShape.isPrintable = true)
    (prints : value.all ExprTree.printsAlone = true) (outside : state.Outside)
    (kinds : state.kinds = .ofWord name :: (typedKinds type ++
      (ExprTree.initializedKinds value ++ .symbol .semicolon :: rest)))
    (second : ∀ nameRead typeRead valueRead later, state.Reaches later →
      nameRead.text = name → typeRead.map TypeExpr.shape = type →
        Renders (value.map ExprTree.guarded) rest valueRead later →
          Gives later (next nameRead typeRead valueRead) after) :
    Gives state
      (do
        let name ← expectIdentifier
        let type ← optionalType
        let value ← optionalInitializer
        optionalSemicolon
        next name type value) after := by
  refine .bind (gives_expectIdentifier outside.ready named kinds) ?_
  rintro nameRead first reaches ⟨same, onward⟩
  have typed : TypeEnded (ExprTree.initializedKinds value ++
      .symbol .semicolon :: rest) :=
    TypeEnded.initialized (.of_head rfl rfl) value
  refine .bind (gives_optionalType grammatical typePrintable reaches.ready
    onward typed) ?_
  rintro typeRead third further ⟨shape, remaining⟩
  have flat := (reaches.trans further).depth.trans outside.flat
  refine .bind (gives_optionalInitializer standalone prints further.ready flat
    remaining (.of_head rfl rfl) (.wall rfl rest)) ?_
  rintro valueRead fourth onwards ⟨depicts, semicolon⟩
  refine .bind (gives_optionalSemicolon onwards.ready semicolon) ?_
  intro _ last final left
  have stored := depicts.extends final.extended onwards.ready.closed
  exact second nameRead typeRead valueRead last
    (reaches.trans (further.trans (onwards.trans final))) same shape
    ⟨stored, left⟩

theorem gives_bindingNode {kind : BindingKind} {name : String}
    {type : Option TypeShape} {value : Option ExprTree}
    (named : isName name = true) (grammatical : ∀ shape ∈ type, shape.Grammatical)
    (standalone : ∀ tree ∈ value, tree.Standalone)
    (printable : (StmtTree.binding kind name type value).isPrintable = true)
    (outside : state.Outside)
    (kinds : state.kinds = .ofWord name :: (typedKinds type ++
      (ExprTree.initializedKinds value ++ .symbol .semicolon :: rest))) :
    Gives state (bindingNode kind) (@Renders Stmt _ _
      (StmtTree.binding kind name type value).guarded rest) := by
  simp only [StmtTree.isPrintable, Bool.and_eq_true] at printable
  refine gives_binding named grammatical standalone printable.1 printable.2
    outside kinds ?_
  rintro name type value later reaches rfl rfl ⟨depicts, left⟩
  refine .pure reaches.ready ⟨?_, left⟩
  rw [StmtTree.guarded]
  exact depicts_binding depicts kind name type

theorem printedStatement_binding {kind : BindingKind} {name : String}
    {type : Option TypeShape} {value : Option ExprTree}
    (grammatical : (StmtTree.binding kind name type value).Grammatical)
    (printable : (StmtTree.binding kind name type value).isPrintable = true) :
    PrintedStatementNode (.binding kind name type value) := by
  intro bound state rest outside kinds enough _
  obtain ⟨named, typed, standalone⟩ := grammatical
  have inside : state.kinds = .keyword kind.keyword :: .ofWord name ::
      (typedKinds type ++ (ExprTree.initializedKinds value ++
        .symbol .semicolon :: rest)) := by
    rw [kinds]
    simp [StmtTree.kinds, bindingKinds]
  refine .current outside.ready inside ?_
  have reads (later : State) (reaches : state.Reaches later)
      (onward : later.kinds = .ofWord name :: (typedKinds type ++
        (ExprTree.initializedKinds value ++ .symbol .semicolon :: rest))) :=
    gives_bindingNode named typed standalone printable (outside.onward reaches)
      onward
  cases kind <;> exact .advance outside.ready inside reads

theorem printedStatement_empty : PrintedStatementNode .empty := by
  intro bound state rest outside kinds enough _
  refine .current outside.ready kinds ?_
  refine .advance outside.ready kinds fun later reaches onward => ?_
  exact .pure reaches.ready ⟨⟨nofun, rfl⟩, onward⟩

theorem printedStatement_expression {value : ExprTree}
    (grammatical : (StmtTree.expression value).Grammatical)
    (printable : (StmtTree.expression value).isPrintable = true) :
    PrintedStatementNode (.expression value) := by
  intro bound state rest outside kinds enough _
  obtain ⟨standalone, plain⟩ := grammatical
  have inside : state.kinds = value.kinds ++ .symbol .semicolon :: rest := by
    rw [kinds]
    simp [StmtTree.kinds]
  have head := List.head?_eq_some_head value.kinds_ne_nil
  have current : state.current.kind = value.kinds.head value.kinds_ne_nil := by
    rw [State.current_eq outside.ready, inside, ExprTree.head?_kinds_append,
      head]
    rfl
  have other := plain _ head
  rw [← current] at other
  refine .inspect ?_
  split
  case h_10 =>
    refine gives_valueAndSemicolon standalone printable outside inside ?_
    rintro id later reaches ⟨depicts, onward⟩
    exact .pure reaches.ready ⟨⟨depicts.stored,
      congrArg StmtTree.expression depicts.shown⟩, onward⟩
  all_goals
    next found =>
      rw [found] at other
      cases other

theorem printedStatement_throw {value : ExprTree}
    (standalone : value.Standalone) (printable : value.printsAlone = true) :
    PrintedStatementNode (.throw value) := by
  intro bound state rest outside kinds enough _
  have inside : state.kinds = .keyword .throwWord ::
      (value.kinds ++ .symbol .semicolon :: rest) := by
    rw [kinds]
    simp [StmtTree.kinds]
  refine .current outside.ready inside ?_
  refine .advance outside.ready inside fun second reaches onward => ?_
  refine gives_valueAndSemicolon standalone printable (outside.onward reaches)
    onward ?_
  rintro id later further ⟨depicts, left⟩
  exact .pure further.ready ⟨⟨depicts.stored,
    congrArg StmtTree.throw depicts.shown⟩, left⟩

theorem printedStatement_return {value : Option ExprTree}
    (standalone : ∀ tree ∈ value, tree.Standalone)
    (printable : value.all ExprTree.printsAlone = true) :
    PrintedStatementNode (.return value) := by
  intro bound state rest outside kinds enough _
  cases value with
  | none =>
      refine .current outside.ready kinds ?_
      refine .advance outside.ready kinds fun second reaches onward => ?_
      refine .inspect (.inspect (.inspect (.isTrue ?_ ?_)))
      · rw [reaches.ready.current_kind onward]
        rfl
      refine .bind (gives_optionalSemicolon reaches.ready onward) ?_
      intro _ last further left
      refine .pure further.ready ⟨⟨nofun, ?_⟩, left⟩
      simp [StmtTree.guarded, Depicted.tree, Stmt.treeWith]
  | some value =>
      have inside : state.kinds = .keyword .returnWord ::
          (value.kinds ++ .symbol .semicolon :: rest) := by
        rw [kinds]
        simp [StmtTree.kinds]
      refine .current outside.ready inside ?_
      refine .advance outside.ready inside fun second reaches onward => ?_
      obtain ⟨kind, head, notSemicolon, notEnd⟩ :=
        opens_kinds value .semicolon rfl
      obtain ⟨_, sameHead, notBrace, _⟩ :=
        opens_kinds value .closeBrace rfl
      cases head.symm.trans sameHead
      have current : second.current.kind = kind := by
        rw [State.current_eq reaches.ready, onward, ExprTree.head?_kinds_append,
          Option.mem_def.mp head]
        rfl
      refine .inspect (.inspect (.inspect (.isFalse ?_ ?_)))
      · rw [current]
        have noSemicolon := mt isSymbol_iff.mp notSemicolon
        have noBrace := mt isSymbol_iff.mp notBrace
        have noEnd := mt isEndOfFile_iff.mp notEnd
        simp [noSemicolon, noBrace, noEnd]
      refine gives_valueAndSemicolon (standalone value rfl) printable
        (outside.onward reaches) onward ?_
      rintro id later further ⟨depicts, left⟩
      refine .pure further.ready ⟨⟨depicts.stored, ?_⟩, left⟩
      rw [StmtTree.guarded]
      exact congrArg (StmtTree.return ∘ some) depicts.shown

/-! ### Statements with others inside -/

/-- A condition in parentheses. -/
theorem gives_condition {Next : Type} {tree : ExprTree}
    {next : ExprId → Parse Next} {after : Next → State → Prop}
    (standalone : tree.Standalone) (prints : tree.printsAlone = true)
    (outside : state.Outside)
    (kinds : state.kinds = .symbol .openParen ::
      (tree.kinds ++ .symbol .closeParen :: rest))
    (second : ∀ id later, state.Reaches later →
      Renders tree.guarded rest id later → Gives later (next id) after) :
    Gives state
      (do
        expectSymbol .openParen
        let condition ← expression
        expectSymbol .closeParen
        next condition) after := by
  refine .bind (.expectSymbol outside.ready kinds) fun _ first reaches onward => ?_
  refine .bind (gives_valueBefore rfl rfl standalone prints
    (outside.onward reaches) onward) ?_
  rintro id third further ⟨depicts, remaining⟩
  refine .bind (.expectSymbol further.ready remaining) ?_
  intro _ last final left
  exact second id last (reaches.trans (further.trans final))
    ⟨depicts.extends final.extended further.ready.closed, left⟩

theorem printedStatement_loop {condition : ExprTree} {body : StmtTree}
    (standalone : condition.Standalone)
    (prints : condition.printsAlone = true) (printed : PrintedStatement body) :
    PrintedStatementNode (.loop condition body) := by
  intro bound state rest outside kinds enough closed
  have inside : state.kinds = .keyword .whileWord :: .symbol .openParen ::
      (condition.kinds ++ .symbol .closeParen :: (body.kinds ++ rest)) := by
    rw [kinds]
    simp [StmtTree.kinds]
  refine .current outside.ready inside ?_
  refine .advance outside.ready inside fun second reaches onward => ?_
  unfold loopNode
  refine gives_condition standalone prints (outside.onward reaches) onward ?_
  rintro id third further ⟨depicts, remaining⟩
  have fewer : third.kinds.length < bound := by
    rw [inside] at enough
    rw [remaining]
    simp only [List.length_cons, List.length_append] at enough ⊢
    omega
  refine .bind (printed (outside.onward (reaches.trans further)) remaining fewer
    closed) ?_
  rintro inner last final ⟨innerDepicts, left⟩
  have stored := depicts.extends final.extended further.ready.closed
  refine .pure final.ready ⟨?_, left⟩
  rw [StmtTree.guarded]
  exact depicts_loop stored innerDepicts

theorem printedStatement_branch {condition : ExprTree} {whenTrue : StmtTree}
    (standalone : condition.Standalone)
    (prints : condition.printsAlone = true)
    (printed : PrintedStatement whenTrue) :
    PrintedStatementNode (.branch condition whenTrue none) := by
  intro bound state rest outside kinds enough closed
  have notElse := closed rfl
  have inside : state.kinds = .keyword .ifWord :: .symbol .openParen ::
      (condition.kinds ++ .symbol .closeParen :: (whenTrue.kinds ++ rest)) := by
    rw [kinds]
    simp [StmtTree.kinds]
  refine .current outside.ready inside ?_
  refine .advance outside.ready inside fun second reaches onward => ?_
  unfold branchNode
  refine gives_condition standalone prints (outside.onward reaches) onward ?_
  rintro id third further ⟨depicts, remaining⟩
  have fewer : third.kinds.length < bound := by
    rw [inside] at enough
    rw [remaining]
    simp only [List.length_cons, List.length_append] at enough ⊢
    omega
  refine .bind (printed (outside.onward (reaches.trans further)) remaining fewer
    fun _ => notElse) ?_
  rintro inner last final ⟨innerDepicts, left⟩
  have stored := depicts.extends final.extended further.ready.closed
  refine .leaveKeyword final.ready (left ▸ notElse)
    (.pure final.ready ⟨?_, left⟩)
  rw [StmtTree.guarded]
  exact depicts_branch stored innerDepicts .none

theorem printedStatement_choice {condition : ExprTree}
    {whenTrue whenFalse : StmtTree} (standalone : condition.Standalone)
    (prints : condition.printsAlone = true)
    (printed : PrintedStatement whenTrue)
    (notOpen : whenTrue.isOpenEnded = false)
    (printedElse : PrintedStatement whenFalse) :
    PrintedStatementNode (.branch condition whenTrue (some whenFalse)) := by
  intro bound state rest outside kinds enough closed
  have inside : state.kinds = .keyword .ifWord :: .symbol .openParen ::
      (condition.kinds ++ .symbol .closeParen :: (whenTrue.kinds ++
        .keyword .elseWord :: (whenFalse.kinds ++ rest))) := by
    rw [kinds]
    simp [StmtTree.kinds]
  refine .current outside.ready inside ?_
  refine .advance outside.ready inside fun second reaches onward => ?_
  unfold branchNode
  refine gives_condition standalone prints (outside.onward reaches) onward ?_
  rintro id third further ⟨depicts, remaining⟩
  rw [inside] at enough
  simp only [List.length_cons, List.length_append] at enough
  have beyond := outside.onward (reaches.trans further)
  refine .bind (printed beyond remaining ?_ fun isOpen => ?_) ?_
  · rw [remaining]
    simp only [List.length_cons, List.length_append]
    omega
  · rw [notOpen] at isOpen
    cases isOpen
  rintro inner fourth next ⟨innerDepicts, isElse⟩
  refine .eatKeyword next.ready isElse fun fifth final others => ?_
  refine .bind (printedElse (beyond.onward (next.trans final)) others ?_ closed)
    ?_
  · rw [others]
    simp only [List.length_append]
    omega
  rintro last sixth after ⟨lastDepicts, left⟩
  have stored := depicts.extends (next.trans (final.trans after)).extended
    further.ready.closed
  have innerStored := innerDepicts.extends (final.trans after).extended
    next.ready.closed
  refine .pure after.ready ⟨?_, left⟩
  rw [StmtTree.guarded]
  exact depicts_branch stored innerStored lastDepicts.some

mutual

theorem printedStatement (tree : StmtTree) (grammatical : tree.Grammatical)
    (printable : tree.isPrintable = true) : PrintedStatement tree := by
  refine PrintedStatementNode.printed ?_
  cases tree with
  | block statements =>
      exact printedStatement_block
        (printedStatements statements grammatical printable) printable
  | expression value =>
      exact printedStatement_expression grammatical printable
  | binding kind name type value =>
      exact printedStatement_binding grammatical printable
  | branch condition whenTrue whenFalse =>
      cases whenFalse with
      | none =>
          simp only [StmtTree.isPrintable, Bool.and_eq_true] at printable
          exact printedStatement_branch grammatical.1 printable.1
            (printedStatement whenTrue grammatical.2 printable.2)
      | some whenFalse =>
          obtain ⟨standalone, trueGrammatical, notOpen, falseGrammatical⟩ :=
            grammatical
          simp only [StmtTree.isPrintable, Bool.and_eq_true] at printable
          exact printedStatement_choice standalone printable.1.1
            (printedStatement whenTrue trueGrammatical printable.1.2) notOpen
            (printedStatement whenFalse falseGrammatical printable.2)
  | loop condition body =>
      simp only [StmtTree.isPrintable, Bool.and_eq_true] at printable
      exact printedStatement_loop grammatical.1 printable.1
        (printedStatement body grammatical.2 printable.2)
  | «return» value => exact printedStatement_return grammatical printable
  | throw value => exact printedStatement_throw grammatical printable
  | empty => exact printedStatement_empty

theorem printedStatements (trees : List StmtTree)
    (grammatical : StmtTree.AllGrammatical trees)
    (printable : StmtTree.arePrintable trees = true) :
    ∀ tree ∈ trees, PrintedStatement tree := by
  cases trees with
  | nil => simp
  | cons tree rest =>
      simp only [StmtTree.arePrintable, Bool.and_eq_true] at printable
      exact List.forall_mem_cons.mpr
        ⟨printedStatement tree grammatical.1 printable.1,
          printedStatements rest grammatical.2 printable.2⟩

end

/-- A block is read back. -/
theorem gives_block {trees : List StmtTree}
    (grammatical : StmtTree.AllGrammatical trees)
    (printable : StmtTree.arePrintable trees = true) (outside : state.Outside)
    (kinds : state.kinds = .symbol .openBrace ::
      (StmtTree.kindsOfAll trees ++ .symbol .closeBrace :: rest)) :
    Gives state block (Renders (StmtTree.allGuarded trees) rest) := by
  refine .inspect (gives_blockOf (printedStatements trees grammatical printable)
    printable outside kinds ?_)
  rw [State.kinds_length]
  exact Nat.le_succ _

end Grammar

end PluginSurface
