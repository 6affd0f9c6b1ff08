import PluginSurface.Proofs.Grammar.ParsedExpressions

/-!
# Statements as they are parsed
-/

namespace PluginSurface.Grammar

set_option synthInstance.maxSize 1024

variable {state : State}

/-! ## Parts of statements -/

theorem yields_optionalSemicolon (ready : state.Ready) :
    Yields state optionalSemicolon fun _ _ => True := by
  change Yields state (eatSymbol .semicolon >>= fun _ => pure ()) _
  refine .eatSymbol ready (fun later leads _ => ?_) fun _ => ?_
  · exact .pure leads.ready trivial
  · exact .pure ready trivial

theorem yields_optionalType (ready : state.Ready) :
    Yields state optionalType fun type _ =>
      ∀ shape ∈ type.map TypeExpr.shape, shape.Grammatical := by
  refine .eatSymbol ready (fun later leads _ => ?_) fun _ => ?_
  · refine .bind (yields_typeExpr leads.ready) fun type last further read => ?_
    exact .pure further.ready (by simpa using read.grammatical)
  · exact .pure ready (by simp)

theorem yields_optionalInitializer (ready : state.Ready)
    (flat : state.depth = 0) :
    Yields state optionalInitializer fun value later =>
      ∃ tree, later.arena.Depicts value tree ∧
        ∀ inner ∈ tree, inner.Standalone := by
  refine .eatSymbol ready (fun later leads _ => ?_) fun _ => ?_
  · refine .bind (yields_standalone leads.ready (leads.depth.trans flat)) ?_
    rintro id last further ⟨tree, depicts, standalone, _⟩
    exact .pure further.ready ⟨some tree, depicts.some, by simpa⟩
  · exact .pure ready ⟨none, .none, by simp⟩

/-- What is known of a statement that was read. -/
structure StmtRead (tree : StmtTree) (after : List TokenKind) : Prop where
  grammatical : tree.Grammatical
  finished : tree.isOpenEnded = true → after.head? ≠ some (.keyword .elseWord)

theorem StmtRead.closed {tree : StmtTree} {after : List TokenKind}
    (grammatical : tree.Grammatical) (notOpen : tree.isOpenEnded = false) :
    StmtRead tree after :=
  ⟨grammatical, fun isOpen => by rw [notOpen] at isOpen; cases isOpen⟩

/-- A parser of statements that is known to read them. -/
def ReadsStatement {Node : Type} [Depicted Node StmtTree]
    (statement : Parse Node) : Prop :=
  ∀ state : State, state.Ready → state.depth = 0 →
    Yields state statement fun node later =>
      ∃ tree, later.arena.Depicts node tree ∧ StmtRead tree later.kinds

theorem depicts_binding {arena : Arena} {value : Option ExprId}
    {tree : Option ExprTree} (depicts : arena.Depicts value tree)
    (kind : BindingKind) (name : Name) (type : Option TypeExpr) :
    arena.Depicts (Stmt.binding kind name type value)
      (.binding kind name.text (type.map TypeExpr.shape) tree) where
  stored point member := by
    refine depicts.stored point ?_
    simpa [Depicted.points, Stmt.points, optionalPoints, eq_comm] using member
  shown := congrArg (StmtTree.binding kind name.text
    (type.map TypeExpr.shape)) depicts.shown

theorem yields_bindingNode (kind : BindingKind) (ready : state.Ready)
    (flat : state.depth = 0) :
    Yields state (bindingNode kind) fun node later =>
      ∃ tree, later.arena.Depicts node tree ∧ StmtRead tree later.kinds := by
  refine .bind (yields_expectIdentifier ready) ?_
  rintro name second leads ⟨named, _⟩
  refine .bind (yields_optionalType leads.ready) ?_
  intro type third further typed
  have both := leads.trans further
  refine .bind (yields_optionalInitializer further.ready
    (both.depth.trans flat)) ?_
  rintro value fourth onward ⟨tree, depicts, standalone⟩
  refine .bind (yields_optionalSemicolon onward.ready) ?_
  intro _ last final _
  have stored := depicts.extends final.extended onward.ready.closed
  exact .pure final.ready ⟨_, depicts_binding stored kind name type,
    .closed ⟨named, typed, standalone⟩ rfl⟩

section

variable {statement : Parse StmtId} [Accounts statement]

theorem yields_statementsUntilBrace (reads : ReadsStatement statement) :
    ∀ (bound : Nat) {state : State}, state.Ready → state.depth = 0 →
      Yields state (statementsUntilBrace statement bound) fun ids later =>
        ∃ trees, later.arena.Depicts ids trees ∧
          StmtTree.AllGrammatical trees
  | 0, _, ready, _ => .pure ready ⟨[], .nil, trivial⟩
  | bound + 1, state, ready, flat => by
      refine .inspect (.inspect (.inspect (.ite (fun _ => ?_) fun _ => ?_)))
      · exact .pure ready ⟨[], .nil, trivial⟩
      refine .inspect (@Yields.bind _ _ _ _ _ _ _ (fun first => ?_)
        (reads state ready flat).attempt ?_)
      · split <;> infer_instance
      rintro _ later leads ⟨first, rfl, tree, depicts, read⟩
      refine .bind (yields_statementsUntilBrace reads bound leads.ready
        (leads.depth.trans flat)) ?_
      rintro ids last further ⟨trees, others, grammatical⟩
      have stored := depicts.extends further.extended leads.ready.closed
      exact .pure further.ready
        ⟨tree :: trees, stored.cons others, read.grammatical, grammatical⟩

theorem yields_blockOf (reads : ReadsStatement statement) (ready : state.Ready)
    (flat : state.depth = 0) :
    Yields state (blockOf statement) fun block later =>
      ∃ trees, later.arena.Depicts block trees ∧
        StmtTree.AllGrammatical trees := by
  refine .inspect (.bind (.expectSymbol ready) fun _ later leads _ => ?_)
  refine .inspect (.bind (yields_statementsUntilBrace reads _ leads.ready
    (leads.depth.trans flat)) ?_)
  rintro ids second further ⟨trees, depicts, grammatical⟩
  refine .bind (.expectSymbol further.ready) fun _ last onward _ => ?_
  have stored := depicts.extends onward.extended further.ready.closed
  refine .spanFrom fun span => .pure onward.ready
    ⟨trees, ⟨fun point member => ?_, stored.shown⟩, grammatical⟩
  refine stored.stored point ?_
  simpa [Depicted.points, Block.points, eq_comm] using member

/-! ## Statements -/

theorem depicts_branch {arena : Arena} {condition : ExprId}
    {tree : ExprTree} {whenTrue : StmtId} {trueTree : StmtTree}
    {whenFalse : Option StmtId} {falseTree : Option StmtTree}
    (first : arena.Depicts condition tree)
    (second : arena.Depicts whenTrue trueTree)
    (third : arena.Depicts whenFalse falseTree) :
    arena.Depicts (Stmt.branch condition whenTrue whenFalse)
      (.branch tree trueTree falseTree) where
  stored point member := by
    rcases List.mem_cons.mp member with rfl | inOthers
    · exact first.stored _ (List.mem_singleton_self _)
    · rcases List.mem_cons.mp inOthers with rfl | inLast
      · exact second.stored _ (List.mem_singleton_self _)
      · refine third.stored point ?_
        simpa [Depicted.points, eq_comm] using inLast
  shown := by
    have condition := first.shown
    have left := second.shown
    have right := third.shown
    subst condition left right
    rfl

theorem depicts_loop {arena : Arena} {condition : ExprId} {tree : ExprTree}
    {body : StmtId} {bodyTree : StmtTree}
    (first : arena.Depicts condition tree)
    (second : arena.Depicts body bodyTree) :
    arena.Depicts (Stmt.loop condition body) (.loop tree bodyTree) where
  stored point member := by
    rcases List.mem_cons.mp member with rfl | inBody
    · exact first.stored _ (List.mem_singleton_self _)
    · exact second.stored point inBody
  shown := by
    have condition := first.shown
    have body := second.shown
    subst condition body
    rfl

theorem yields_branchNode (reads : ReadsStatement statement)
    (ready : state.Ready) (flat : state.depth = 0) :
    Yields state (branchNode statement) fun node later =>
      ∃ tree, later.arena.Depicts node tree ∧ StmtRead tree later.kinds := by
  refine .bind (.expectSymbol ready) fun _ second leads _ => ?_
  refine .bind (yields_standalone leads.ready (leads.depth.trans flat)) ?_
  rintro condition third further ⟨tree, depicts, standalone, _⟩
  refine .bind (.expectSymbol further.ready) fun _ fourth onward _ => ?_
  have earlier := leads.trans (further.trans onward)
  refine .bind (reads fourth onward.ready (earlier.depth.trans flat)) ?_
  rintro whenTrue fifth next ⟨trueTree, trueDepicts, trueRead⟩
  have first := depicts.extends (onward.trans next).extended
    further.ready.closed
  refine .eatKeyword next.ready (fun sixth final isElse => ?_) fun notElse => ?_
  · have all := earlier.trans (next.trans final)
    refine .bind (reads sixth final.ready (all.depth.trans flat)) ?_
    rintro whenFalse last after ⟨falseTree, falseDepicts, falseRead⟩
    have both := final.trans after
    have notOpen : trueTree.isOpenEnded = false := by
      cases isOpen : trueTree.isOpenEnded with
      | false => rfl
      | true => exact absurd (by rw [isElse]; rfl) (trueRead.finished isOpen)
    exact .pure after.ready ⟨.branch tree trueTree (some falseTree),
      depicts_branch (first.extends both.extended next.ready.closed)
        (trueDepicts.extends both.extended next.ready.closed)
        falseDepicts.some,
      ⟨standalone, trueRead.grammatical, notOpen, falseRead.grammatical⟩,
      falseRead.finished⟩
  · refine .pure next.ready ⟨.branch tree trueTree none,
      depicts_branch first trueDepicts .none,
      ⟨standalone, trueRead.grammatical⟩, fun _ isElse => notElse ?_⟩
    rw [State.current_eq next.ready, isElse]
    rfl

theorem yields_loopNode (reads : ReadsStatement statement)
    (ready : state.Ready) (flat : state.depth = 0) :
    Yields state (loopNode statement) fun node later =>
      ∃ tree, later.arena.Depicts node tree ∧ StmtRead tree later.kinds := by
  refine .bind (.expectSymbol ready) fun _ second leads _ => ?_
  refine .bind (yields_standalone leads.ready (leads.depth.trans flat)) ?_
  rintro condition third further ⟨tree, depicts, standalone, _⟩
  refine .bind (.expectSymbol further.ready) fun _ fourth onward _ => ?_
  have earlier := leads.trans (further.trans onward)
  refine .bind (reads fourth onward.ready (earlier.depth.trans flat)) ?_
  rintro body last next ⟨bodyTree, bodyDepicts, bodyRead⟩
  have first := depicts.extends (onward.trans next).extended
    further.ready.closed
  exact .pure next.ready ⟨_, depicts_loop first bodyDepicts,
    ⟨standalone, bodyRead.grammatical⟩, bodyRead.finished⟩

theorem yields_returnNode (ready : state.Ready) (flat : state.depth = 0) :
    Yields state returnNode fun node later =>
      ∃ tree, later.arena.Depicts node tree ∧ StmtRead tree later.kinds := by
  refine .inspect (.inspect (.inspect (.ite (fun _ => ?_) fun _ => ?_)))
  · refine .bind (yields_optionalSemicolon ready) fun _ later leads _ => ?_
    refine .pure leads.ready ⟨.return none, ⟨?_, rfl⟩, .closed ?_ rfl⟩
    · simp [Depicted.points, Stmt.points, optionalPoints]
    · simp [StmtTree.Grammatical]
  · refine .bind (yields_standalone ready flat) ?_
    rintro id later leads ⟨tree, depicts, standalone, _⟩
    refine .bind (yields_optionalSemicolon leads.ready) ?_
    intro _ last further _
    have stored := depicts.extends further.extended leads.ready.closed
    refine .pure further.ready ⟨.return (some tree), ⟨stored.stored,
      congrArg (StmtTree.return ∘ some) stored.shown⟩, .closed ?_ rfl⟩
    simpa [StmtTree.Grammatical] using standalone

theorem yields_statementNode (reads : ReadsStatement statement) :
    ReadsStatement (statementNode statement) := by
  intro state ready flat
  refine .inspect ?_
  split
  case h_1 found =>
    refine .bind (yields_blockOf reads ready flat) ?_
    rintro block later leads ⟨trees, depicts, grammatical⟩
    exact .pure leads.ready ⟨.block trees, ⟨depicts.stored,
      congrArg StmtTree.block depicts.shown⟩, .closed grammatical rfl⟩
  case h_2 found =>
    refine .advance ready found (by simp) fun later leads _ => ?_
    refine .pure leads.ready ⟨.empty, ⟨?_, rfl⟩, .closed trivial rfl⟩
    simp [Depicted.points, Stmt.points]
  case h_3 found =>
    exact .advance ready found (by simp) fun later leads _ =>
      yields_bindingNode _ leads.ready (leads.depth.trans flat)
  case h_4 found =>
    exact .advance ready found (by simp) fun later leads _ =>
      yields_bindingNode _ leads.ready (leads.depth.trans flat)
  case h_5 found =>
    exact .advance ready found (by simp) fun later leads _ =>
      yields_bindingNode _ leads.ready (leads.depth.trans flat)
  case h_6 found =>
    exact .advance ready found (by simp) fun later leads _ =>
      yields_branchNode reads leads.ready (leads.depth.trans flat)
  case h_7 found =>
    exact .advance ready found (by simp) fun later leads _ =>
      yields_loopNode reads leads.ready (leads.depth.trans flat)
  case h_8 found =>
    exact .advance ready found (by simp) fun later leads _ =>
      yields_returnNode leads.ready (leads.depth.trans flat)
  case h_9 found =>
    refine .advance ready found (by simp) fun later leads _ => ?_
    refine .bind (yields_standalone leads.ready (leads.depth.trans flat)) ?_
    rintro id second further ⟨tree, depicts, standalone, _⟩
    refine .bind (yields_optionalSemicolon further.ready) ?_
    intro _ last onward _
    have stored := depicts.extends onward.extended further.ready.closed
    exact .pure onward.ready ⟨.throw tree, ⟨stored.stored,
      congrArg StmtTree.throw stored.shown⟩, .closed standalone rfl⟩
  case h_10 notBrace notSemicolon notLet notConst notVar notIf notWhile
      notReturn notThrow =>
    refine .bind (yields_standalone ready flat) ?_
    rintro id later leads ⟨tree, depicts, standalone, first⟩
    refine .bind (yields_optionalSemicolon leads.ready) ?_
    intro _ last further _
    have stored := depicts.extends further.extended leads.ready.closed
    refine .pure further.ready ⟨.expression tree, ⟨stored.stored,
      congrArg StmtTree.expression stored.shown⟩,
      .closed ⟨standalone, fun kind head => ?_⟩ rfl⟩
    rw [first] at head
    have current := State.current_eq ready
    rw [Option.mem_def.mp head, Option.getD_some] at current
    subst current
    unfold startsOtherStatement
    split <;> first | rfl | contradiction

end

theorem yields_statementAt (bound : Nat) :
    ReadsStatement (statementAt bound) := by
  induction bound with
  | zero => exact fun _ _ _ => .failHere
  | succ bound inductionHypothesis =>
      intro state ready flat
      refine .inspect (.bind (yields_statementNode inductionHypothesis
        state ready flat) ?_)
      rintro node later leads ⟨tree, depicts, read⟩
      refine .spanFrom fun span => (Yields.addStmt leads.ready depicts).imp ?_
      rintro id last _ ⟨shown, same⟩
      rw [same]
      exact ⟨tree, shown, read⟩

theorem yields_block (ready : state.Ready) (flat : state.depth = 0) :
    Yields state block fun block later =>
      ∃ trees, later.arena.Depicts block trees ∧
        StmtTree.AllGrammatical trees :=
  .inspect (yields_blockOf (yields_statementAt _) ready flat)

end PluginSurface.Grammar
