import PluginSurface.Proofs.Grammar.ParsedTypes

/-!
# Expressions as they are parsed

A parsed expression is grammatical. A parser of expressions calls another one
for the parts; what is known of the parts gives the same of the whole, and the
number of tokens that are left bounds how often this goes on.
-/

namespace PluginSurface

open Grammar

/-! ## What is known of an expression -/

namespace ExprTree

/-- What follows an expression goes on neither with its last operand nor with
the type it ends in. -/
structure EndsAt (tree : ExprTree) (after : List TokenKind) : Prop where
  typed : ∀ type ∈ tree.endType?, type.isNullable = false →
    ¬ StartsNullable after
  plain : tree.endType? = none → ¬ StartsAccess after

/-- What follows an expression may be an operator after it. -/
def AdmitsAt (tree : ExprTree) (after : List TokenKind) : Prop :=
  ∀ kind ∈ after.head?, ∀ precedence ∈ infixPrecedence? kind,
    tree.admits precedence

/-- A primary expression with calls and accesses. -/
structure Postfix (tree : ExprTree) : Prop where
  tight : postfixTightness ≤ tree.loosest
  untyped : tree.endType? = none

theorem admits_of_tight {tree : ExprTree} (tight : unaryTightness ≤ tree.loosest)
    (precedence : Nat) : tree.admits precedence := by
  cases tree with
  | binary operator left right =>
      have loose : (binary operator left right).loosest ≤ 10 :=
        Nat.le_trans (Nat.min_le_left _ _) (by cases operator <;> decide)
      simp only [unaryTightness] at tight
      omega
  | _ => trivial

theorem Postfix.endsAt {tree : ExprTree} {after : List TokenKind}
    (isPostfix : tree.Postfix) (stopped : ¬ StartsAccess after) :
    tree.EndsAt after where
  typed type isEnd := by
    rw [isPostfix.untyped] at isEnd
    cases isEnd
  plain _ := stopped

end ExprTree

namespace Grammar

open ExprTree

/-- Goals that parsers of expressions call for. -/
def ExprGoal.Sound : ExprGoal → Prop
  | .binary least => 0 < least ∧ least ≤ unaryTightness
  | _ => True

/-- What is known of an expression that was read for a goal. -/
def ExprGoal.Reads (goal : ExprGoal) (depth : Nat) (tree : ExprTree)
    (before after : List TokenKind) : Prop :=
  match goal with
  | .expression => tree.ReadFrom (depth + 1) before after
  | .assignment => tree.ReadFrom depth before after
  | .binary least =>
      tree.ReadFrom depth before after ∧ least ≤ tree.loosest ∧
        Stopped least after ∧ tree.EndsAt after
  | .unary =>
      tree.ReadFrom depth before after ∧ unaryTightness ≤ tree.loosest ∧
        tree.EndsAt after

/-- A parser of expressions that is known to read what it is called for. -/
def ReadsGoals (sub : ExprGoal → Parse ExprId) : Prop :=
  ∀ (goal : ExprGoal) (state : State), goal.Sound → state.Ready →
    state.depth ≤ nestingLimit →
      Yields state (sub goal) fun id later =>
        ∃ tree, later.arena.Depicts id tree ∧
          goal.Reads state.depth tree state.kinds later.kinds

set_option synthInstance.maxSize 1024

section

variable {sub : ExprGoal → Parse ExprId} [∀ goal, Accounts (sub goal)]
  {state : State}

/-! ## Lists -/

section

variable {item : Parse ExprId} [Accounts item]

/-- A parser of expressions that stand between commas. -/
def ReadsItem (item : Parse ExprId) : Prop :=
  ∀ state : State, state.Ready → state.depth ≤ nestingLimit →
    Yields state item fun id later =>
      ∃ tree, later.arena.Depicts id tree ∧
        tree.ReadFrom (state.depth + 1) state.kinds later.kinds

theorem yields_exprItems (reads : ReadsItem item) {closing : Symbol} :
    ∀ (bound : Nat) {state : State}, state.Ready →
      state.depth ≤ nestingLimit →
        Yields state (itemsUntil closing item bound)
          fun ids later => ∃ trees, later.arena.Depicts ids trees ∧
            AllReadFrom trees state.depth state.kinds later.kinds
  | 0, _, _, _ => .failHere
  | bound + 1, state, ready, shallow => by
      refine .inspect (.inspect (.ite (fun _ => ?_) fun _ => ?_))
      · exact .pure ready ⟨[], .nil, .nil shallow⟩
      refine .bind (reads state ready shallow) ?_
      rintro id later leads ⟨tree, depicts, read⟩
      refine .eatSymbol leads.ready (fun second further comma => ?_) fun _ => ?_
      · have shallowAfter : second.depth ≤ nestingLimit := by
          rw [further.depth, leads.depth]
          exact shallow
        refine .bind (yields_exprItems reads bound further.ready
          shallowAfter) ?_
        rintro ids last onward ⟨trees, others, allRead⟩
        have first := depicts.extends
          (further.extended.trans onward.extended) leads.ready.closed
        rw [further.depth, leads.depth] at allRead
        rw [comma] at read
        exact .pure onward.ready
          ⟨tree :: trees, first.cons others, .cons read allRead⟩
      · exact .pure leads.ready ⟨[tree], depicts.cons .nil, .singleton read⟩

/-- A list of expressions up to a closing symbol. -/
theorem yields_exprList (reads : ReadsItem item) {closing : Symbol}
    (ready : state.Ready) (shallow : state.depth ≤ nestingLimit) :
    Yields state (listUntil closing item) fun ids later =>
      ∃ trees, later.arena.Depicts ids trees ∧
        AllReadFrom trees state.depth state.kinds
          (.symbol closing :: later.kinds) := by
  refine .inspect (.bind (yields_exprItems reads _ ready shallow) ?_)
  rintro ids later leads ⟨trees, depicts, read⟩
  refine .bind (.expectSymbol leads.ready) fun _ last onward close => ?_
  rw [close] at read
  exact .pure onward.ready
    ⟨trees, depicts.extends onward.extended leads.ready.closed, read⟩

end

omit [∀ goal, Accounts (sub goal)] in
theorem ReadsGoals.item (reads : ReadsGoals sub) :
    ReadsItem (sub .expression) :=
  fun state ready shallow => reads .expression state trivial ready shallow

theorem yields_arguments (reads : ReadsGoals sub) (ready : state.Ready)
    (shallow : state.depth ≤ nestingLimit) :
    Yields state (arguments sub) fun ids later =>
      ∃ trees, later.arena.Depicts ids trees ∧
        AllEnclosed state.depth trees := by
  refine (yields_exprList reads.item ready shallow).imp ?_
  rintro ids later _ ⟨trees, depicts, read⟩
  exact ⟨trees, depicts, read.allEnclosed⟩

theorem yields_objectEntry (reads : ReadsGoals sub) (ready : state.Ready)
    (shallow : state.depth ≤ nestingLimit) :
    Yields state (objectEntry sub) fun entry later =>
      ∃ tree : String × ExprTree, later.arena.Depicts entry tree ∧
        tree.2.EntryValue state.depth := by
  have value (key : Name) {later : State} (leads : state.Leads later) :
      Yields later (do
        if ← eatSymbol .colon then
          let value ← sub .expression
          return (key, value)
        else
          let value ← addExpr (.identifier key.text) key.span
          return (key, value)) fun entry last =>
        ∃ tree : String × ExprTree, last.arena.Depicts entry tree ∧
          tree.2.EntryValue state.depth := by
    refine .eatSymbol leads.ready (fun second further _ => ?_) fun _ => ?_
    · have shallowAfter : second.depth ≤ nestingLimit := by
        rw [further.depth, leads.depth]
        exact shallow
      refine .bind (reads .expression second trivial further.ready
        shallowAfter) ?_
      rintro id last onward ⟨tree, depicts, read⟩
      have enclosed := ReadFrom.enclosed read
      rw [further.depth, leads.depth] at enclosed
      refine .pure onward.ready ⟨(key.text, tree), ⟨depicts.stored, ?_⟩,
        enclosed.entryValue⟩
      exact congrArg (key.text, ·) depicts.shown
    · have depicts : later.arena.Depicts (Expr.identifier key.text)
          (.identifier key.text) := ⟨by simp [Depicted.points, Expr.children],
        rfl⟩
      refine .bind (.addExpr leads.ready depicts) ?_
      rintro id last onward ⟨depicts, _⟩
      refine .pure onward.ready ⟨(key.text, .identifier key.text),
        ⟨depicts.stored, ?_⟩, entryValue_identifier _⟩
      exact congrArg (key.text, ·) depicts.shown
  refine .inspect ?_
  split
  · next content found =>
      refine .bind (yields_takeName ready found (by simp)) ?_
      intro name later leads _
      exact value name leads
  · refine .bind (yields_expectPropertyName ready) ?_
    intro name later leads _
    exact value name leads

/-! ## Primary expressions -/

/-- A node whose tree is a primary expression that was read from some tokens. -/
def ReadsNode (depth : Nat) (before : List TokenKind) (node : Expr)
    (later : State) : Prop :=
  ∃ tree, later.arena.Depicts node tree ∧
    tree.ReadFrom depth before later.kinds ∧ tree.Postfix

theorem depicts_leaf {node : Expr} (leaf : node.children = [])
    (arena : Arena) :
    arena.Depicts node (node.treeWith arena.exprTree) where
  stored := by simp [Depicted.points, leaf]
  shown := rfl

/-- A primary expression that is a single token. -/
theorem yields_leaf {kind : TokenKind} {node : Expr} {tree : ExprTree}
    (ready : state.Ready) (shallow : state.depth ≤ nestingLimit)
    (found : state.current.kind = kind) (notEnd : kind ≠ .endOfFile)
    (leaf : node.children = [])
    (shown : ∀ view, node.treeWith view = tree)
    (single : tree.kinds = [kind]) (grammatical : tree.Grammatical)
    (flat : tree.nesting = 0) (unmistaken : ∀ rest, tree.Unmistaken rest)
    (isPostfix : tree.Postfix) :
    Yields state (do advance; return node)
      (ReadsNode state.depth state.kinds) := by
  refine .advance ready found notEnd fun later leads kinds => ?_
  rw [kinds]
  have depicts := depicts_leaf leaf later.arena
  rw [shown] at depicts
  exact .pure leads.ready ⟨tree, depicts,
    .leaf single grammatical shallow flat unmistaken, isPostfix⟩

theorem yields_primaryNode (reads : ReadsGoals sub) (ready : state.Ready)
    (shallow : state.depth ≤ nestingLimit) :
    Yields state (primaryNode sub) (ReadsNode state.depth state.kinds) := by
  have lexed := ready.isLexed
  have inside {later : State} (leads : state.Leads later) :
      later.depth ≤ nestingLimit := by
    rw [leads.depth]
    exact shallow
  refine .inspect ?_
  split
  case h_1 value spelling found =>
    rw [found] at lexed
    exact yields_leaf ready shallow found (by simp) rfl (fun _ => rfl) rfl lexed
      rfl (fun _ => trivial) ⟨Nat.le_refl _, rfl⟩
  case h_2 value spelling found =>
    rw [found] at lexed
    exact yields_leaf ready shallow found (by simp) rfl (fun _ => rfl) rfl lexed
      rfl (fun _ => trivial) ⟨Nat.le_refl _, rfl⟩
  case h_3 content found =>
    exact yields_leaf ready shallow found (by simp) rfl (fun _ => rfl) rfl trivial
      rfl (fun _ => trivial) ⟨Nat.le_refl _, rfl⟩
  case h_4 name found =>
    rw [found] at lexed
    have word : (identifier name).kinds = [.identifier name] := by
      rw [kinds, TokenKind.ofWord, lexed.2]
    exact yields_leaf ready shallow found (by simp) rfl (fun _ => rfl) word trivial
      rfl (fun _ => trivial) ⟨Nat.le_refl _, rfl⟩
  case h_5 found =>
    exact yields_leaf ready shallow found (by simp) rfl (fun _ => rfl) rfl trivial
      rfl (fun _ => trivial) ⟨Nat.le_refl _, rfl⟩
  case h_6 found =>
    exact yields_leaf ready shallow found (by simp) rfl (fun _ => rfl) rfl trivial
      rfl (fun _ => trivial) ⟨Nat.le_refl _, rfl⟩
  case h_7 found =>
    exact yields_leaf ready shallow found (by simp) rfl (fun _ => rfl) rfl trivial
      rfl (fun _ => trivial) ⟨Nat.le_refl _, rfl⟩
  case h_8 found =>
    exact yields_leaf ready shallow found (by simp) rfl (fun _ => rfl) rfl trivial
      rfl (fun _ => trivial) ⟨Nat.le_refl _, rfl⟩
  case h_9 found =>
    dsimp only
    refine .advance ready found (by simp) fun later leads kinds => ?_
    refine .bind (yields_typeExpr leads.ready) ?_
    intro type second further typeRead
    rw [kinds]
    refine .eatSymbol further.ready (fun third onward _ => ?_) fun _ => ?_
    · have allLeads := leads.trans (further.trans onward)
      refine .bind (yields_arguments reads onward.ready (inside allLeads)) ?_
      rintro ids last final ⟨trees, depicts, enclosed⟩
      rw [allLeads.depth] at enclosed
      refine .continued rfl final.ready.leads (.pure final.ready
        ⟨.new type.shape trees, ⟨?_, ?_⟩, .new typeRead.grammatical enclosed,
          ⟨Nat.le_refl _, rfl⟩⟩)
      · intro point member
        exact depicts.stored point
          (by simpa [Depicted.points, Expr.children, eq_comm] using member)
      · exact congrArg (ExprTree.new type.shape) depicts.shown
    · refine .continued rfl further.ready.leads (.pure further.ready
        ⟨.new type.shape [], ⟨?_, rfl⟩, .new typeRead.grammatical
          (allEnclosed_nil shallow), ⟨Nat.le_refl _, rfl⟩⟩)
      simp [Depicted.points, Expr.children]
  case h_10 word _ _ _ _ _ found =>
    refine .ite (fun contextual => ?_) fun _ => .failHere
    have single : (identifier word.text).kinds = [.keyword word] := by
      rw [kinds, ofWord_text]
    exact yields_leaf ready shallow found (by simp) rfl (fun _ => rfl) single
      trivial rfl (fun _ => trivial) ⟨Nat.le_refl _, rfl⟩
  case h_11 found =>
    refine .advance ready found (by simp) fun later leads kinds => ?_
    refine .bind (reads .expression later trivial leads.ready (inside leads)) ?_
    rintro id second further ⟨tree, depicts, read⟩
    refine .bind (.expectSymbol further.ready) fun _ last onward close => ?_
    have stored := depicts.extends onward.extended further.ready.closed
    refine .pure onward.ready ⟨.paren tree, ⟨?_, ?_⟩, ?_, ⟨Nat.le_refl _, rfl⟩⟩
    · simpa [Depicted.points, Expr.children] using stored.stored
    · exact congrArg ExprTree.paren stored.shown
    · rw [kinds]
      have inner : tree.ReadFrom (later.depth + 1) later.kinds second.kinds :=
        read
      rw [leads.depth, close] at inner
      exact inner.paren
  case h_12 found =>
    refine .advance ready found (by simp) fun later leads kinds => ?_
    refine .bind (yields_exprList reads.item leads.ready (inside leads)) ?_
    rintro ids second further ⟨trees, depicts, read⟩
    rw [leads.depth] at read
    rw [kinds]
    refine .pure further.ready ⟨.array trees, ⟨?_, ?_⟩, .array read,
      ⟨Nat.le_refl _, rfl⟩⟩
    · intro point member
      exact depicts.stored point
        (by simpa [Depicted.points, Expr.children, eq_comm] using member)
    · exact congrArg ExprTree.array depicts.shown
  case h_13 found =>
    refine .advance ready found (by simp) fun later leads kinds => ?_
    have spec : ∀ start : State, start.Ready → start.depth = later.depth →
        Yields start (objectEntry sub) fun entry last =>
          ∃ tree : String × ExprTree, last.arena.Depicts entry tree ∧
            tree.2.EntryValue later.depth := fun start ready same =>
      same ▸ yields_objectEntry reads ready (same ▸ inside leads)
    refine .bind (yields_listUntil spec leads.ready rfl) ?_
    rintro entries second further ⟨trees, depicts, values⟩
    rw [leads.depth] at values
    rw [kinds]
    refine .pure further.ready ⟨.object trees, ⟨?_, ?_⟩,
      .object values shallow, ⟨Nat.le_refl _, rfl⟩⟩
    · intro point member
      exact depicts.stored point
        (by simpa [Depicted.points, Expr.children, eq_comm] using member)
    · exact congrArg ExprTree.object depicts.shown
  case h_14 => exact .failHere

theorem yields_primary (reads : ReadsGoals sub) (ready : state.Ready)
    (shallow : state.depth ≤ nestingLimit) :
    Yields state (primary sub) fun id later =>
      ∃ tree, later.arena.Depicts id tree ∧
        tree.ReadFrom state.depth state.kinds later.kinds ∧ tree.Postfix := by
  refine .inspect (.bind (yields_primaryNode reads ready shallow) ?_)
  rintro node later leads ⟨tree, depicts, read, isPostfix⟩
  refine .spanFrom fun span => (Yields.addExpr leads.ready depicts).imp ?_
  rintro id last _ ⟨depicts, same⟩
  refine ⟨tree, depicts, ?_, isPostfix⟩
  rw [same]
  exact read

/-! ## Calls and accesses -/

theorem startsAccess_current (ready : state.Ready)
    (starts : StartsAccess state.kinds) :
    state.current.kind = .symbol .openParen ∨
      state.current.kind = .symbol .dot ∨
      state.current.kind = .symbol .openBracket ∨
      state.current.kind = .symbol .less ∧
        closesBeforeCall 0 state.rest = true := by
  have current := State.current_eq ready
  rw [closesBeforeCall_eq]
  change _ ∨ _ ∨ _ ∨ _ ∧ closes 0 state.kinds = true
  unfold StartsAccess at starts
  split at starts
  · next rest kinds => rw [current, kinds]; exact .inl rfl
  · next rest kinds => rw [current, kinds]; exact .inr (.inl rfl)
  · next rest kinds => rw [current, kinds]; exact .inr (.inr (.inl rfl))
  · next rest kinds =>
      rw [current, kinds]
      refine .inr (.inr (.inr ⟨rfl, ?_⟩))
      simpa [closes, angleChange?] using starts
  · exact starts.elim

theorem depicts_member {arena : Arena} {object : ExprId} {tree : ExprTree}
    (depicts : arena.Depicts object tree) (property : Name) :
    arena.Depicts (Expr.member object property)
      (.member tree property.text) where
  stored := depicts.stored
  shown := congrArg (ExprTree.member · property.text) depicts.shown

theorem depicts_index {arena : Arena} {object position : ExprId}
    {tree inner : ExprTree} (depicts : arena.Depicts object tree)
    (within : arena.Depicts position inner) :
    arena.Depicts (Expr.index object position) (.index tree inner) where
  stored point member := by
    rcases List.mem_cons.mp member with rfl | inPosition
    · exact depicts.stored _ (List.mem_singleton_self _)
    · exact within.stored point inPosition
  shown := by
    have outside := depicts.shown
    have inside := within.shown
    subst outside inside
    rfl

theorem depicts_call {arena : Arena} {callee : ExprId} {tree : ExprTree}
    {values : List ExprId} {trees : List ExprTree}
    (depicts : arena.Depicts callee tree)
    (within : arena.Depicts values trees) (types : List TypeExpr) :
    arena.Depicts (Expr.call callee types values)
      (.call tree (types.map TypeExpr.shape) trees) where
  stored point member := by
    rcases List.mem_cons.mp member with rfl | inValues
    · exact depicts.stored _ (List.mem_singleton_self _)
    · refine within.stored point ?_
      simpa [Depicted.points, eq_comm] using inValues
  shown := by
    have outside := depicts.shown
    have inside := within.shown
    subst outside inside
    rfl

theorem yields_accesses (reads : ReadsGoals sub) {before : List TokenKind} :
    ∀ (bound : Nat) {state : State} {id : ExprId} {tree : ExprTree},
      state.Ready → state.depth ≤ nestingLimit → state.rest.length < bound →
      state.arena.Depicts id tree →
      tree.ReadFrom state.depth before state.kinds → tree.Postfix →
        Yields state (accesses sub bound id) fun id later =>
          ∃ tree, later.arena.Depicts id tree ∧
            tree.ReadFrom state.depth before later.kinds ∧
            tree.Postfix ∧ ¬ StartsAccess later.kinds
  | 0, _, _, _, _, _, enough, _, _, _ => absurd enough (Nat.not_lt_zero _)
  | bound + 1, state, id, tree, ready, shallow, enough, depicts, read,
      isPostfix => by
      have again {last : State} {id : ExprId} {tree : ExprTree}
          (leads : state.Leads last)
          (fewer : last.kinds.length < state.kinds.length)
          (depicts : last.arena.Depicts id tree)
          (read : tree.ReadFrom state.depth before last.kinds)
          (isPostfix : tree.Postfix) :
          Yields last (accesses sub bound id) fun id later =>
            ∃ tree, later.arena.Depicts id tree ∧
              tree.ReadFrom state.depth before later.kinds ∧
              tree.Postfix ∧ ¬ StartsAccess later.kinds := by
        rw [State.kinds_length, State.kinds_length] at fewer
        rw [← leads.depth] at read ⊢
        exact yields_accesses reads bound leads.ready
          (leads.depth ▸ shallow) (by omega) depicts read isPostfix
      have inside {later : State} (leads : state.Leads later) :
          later.depth ≤ nestingLimit := leads.depth ▸ shallow
      refine .inspect ?_
      split
      case h_1 found =>
        refine .advance ready found (by simp) fun later leads kinds => ?_
        refine .bind (yields_arguments reads leads.ready (inside leads)) ?_
        rintro ids second further ⟨trees, values, enclosed⟩
        rw [leads.depth] at enclosed
        rw [kinds] at read
        have both := leads.trans further
        have target := depicts.extends both.extended ready.closed
        refine .inspect (.spanFrom fun span => .bind (.addExpr further.ready
          (depicts_call target values [])) ?_)
        rintro whole last onward ⟨shown, same⟩
        have fewer : last.kinds.length < state.kinds.length := by
          have shorter := further.shorter
          rw [same, kinds, List.length_cons, State.kinds_length,
            State.kinds_length]
          omega
        exact again (both.trans onward) fewer shown
          (read.call isPostfix.tight enclosed) ⟨Nat.le_refl _, rfl⟩
      case h_2 found =>
        refine .inspect (.ite (fun looks => ?_) fun other => ?_)
        · refine .advance ready found (by simp) fun later leads kinds => ?_
          refine .bind (.inspect (yields_separatedTypes yields_typeExpr _
            leads.ready)) ?_
          intro types second further typesRead
          refine .bind (yields_expectClosingAngle further.ready) ?_
          intro _ third onward close
          refine .bind (.expectSymbol onward.ready) fun _ fourth next open_ => ?_
          have earlier := leads.trans (further.trans (onward.trans next))
          refine .bind (yields_arguments reads next.ready (inside earlier)) ?_
          rintro ids fifth final ⟨trees, values, enclosed⟩
          rw [earlier.depth] at enclosed
          have all := earlier.trans final
          have target := depicts.extends all.extended ready.closed
          have isBare : TypeShape.areBare (types.map TypeExpr.shape) = true := by
            refine (typesRead.bare 1 (by decide) ?_).1
            simp only [Bool.and_eq_true, closesBeforeCall_eq] at looks
            have closed : closes 0 state.kinds = true := looks.2
            rw [kinds] at closed
            simpa [closes, angleChange?] using closed
          refine .inspect (.spanFrom fun span => .bind (.addExpr final.ready
            (depicts_call target values types)) ?_)
          rintro whole last onward ⟨shown, same⟩
          have fewer : last.kinds.length < state.kinds.length := by
            have shorter := (further.trans (‹second.Leads third›.trans
              (next.trans final))).shorter
            rw [same, kinds, List.length_cons, State.kinds_length,
              State.kinds_length]
            omega
          exact again (all.trans onward) fewer shown
            (read.typedCall isPostfix.tight typesRead.some_type
              typesRead.grammatical isBare enclosed) ⟨Nat.le_refl _, rfl⟩
        · refine .pure ready ⟨tree, depicts, read, isPostfix, fun starts => ?_⟩
          rcases startsAccess_current ready starts with
            same | same | same | ⟨same, closed⟩
          · rw [found] at same; cases same
          · rw [found] at same; cases same
          · rw [found] at same; cases same
          · refine other ?_
            rw [found, closed]
            rfl
      case h_3 found =>
        refine .advance ready found (by simp) fun later leads kinds => ?_
        refine .bind (yields_expectPropertyName leads.ready) ?_
        rintro property second further ⟨word, name⟩
        rw [kinds, name] at read
        have both := leads.trans further
        have target := depicts.extends both.extended ready.closed
        refine .inspect (.bind (.addExpr further.ready
          (depicts_member target property)) ?_)
        rintro whole last onward ⟨shown, same⟩
        have fewer : last.kinds.length < state.kinds.length := by
          rw [same, kinds, name, List.length_cons, List.length_cons]
          omega
        rw [← same] at read
        exact again (both.trans onward) fewer shown
          (read.member isPostfix.tight word) ⟨Nat.le_refl _, rfl⟩
      case h_4 found =>
        refine .advance ready found (by simp) fun later leads kinds => ?_
        refine .bind (reads .expression later trivial leads.ready
          (inside leads)) ?_
        rintro position second further ⟨inner, values, innerRead⟩
        refine .bind (.expectSymbol further.ready) fun _ third onward close => ?_
        have innerRead : inner.ReadFrom (later.depth + 1) later.kinds
            second.kinds := innerRead
        rw [leads.depth, close] at innerRead
        rw [kinds] at read
        have all := leads.trans (further.trans onward)
        have target := depicts.extends all.extended ready.closed
        have value := values.extends onward.extended further.ready.closed
        refine .inspect (.spanFrom fun span => .bind (.addExpr onward.ready
          (depicts_index target value)) ?_)
        rintro whole last next ⟨shown, same⟩
        have fewer : last.kinds.length < state.kinds.length := by
          have shorter := (further.trans onward).shorter
          rw [same, kinds, List.length_cons, State.kinds_length,
            State.kinds_length]
          omega
        rw [← same] at innerRead
        exact again (all.trans next) fewer shown
          (read.index isPostfix.tight innerRead) ⟨Nat.le_refl _, rfl⟩
      case h_5 notParen notLess notDot notBracket =>
        refine .pure ready ⟨tree, depicts, read, isPostfix, fun starts => ?_⟩
        rcases startsAccess_current ready starts with
          same | same | same | ⟨same, _⟩
        · exact notParen same
        · exact notDot same
        · exact notBracket same
        · exact notLess same

/-! ## Operators -/

theorem unaryOperator?_eq {kind : TokenKind} {operator : UnaryOperator}
    (known : unaryOperator? kind = some operator) :
    kind = .symbol operator.symbol := by
  unfold unaryOperator? at known
  split at known <;> cases known <;> rfl

theorem binaryOperator?_eq {kind : TokenKind} {operator : BinaryOperator}
    (known : binaryOperator? kind = some operator) :
    kind = .symbol operator.symbol := by
  unfold binaryOperator? at known
  split at known <;> cases known <;> rfl

theorem assignmentOperator?_eq {kind : TokenKind}
    {operator : Option BinaryOperator}
    (known : assignmentOperator? kind = some operator) :
    kind = .symbol (assignmentSymbol operator) := by
  unfold assignmentOperator? at known
  split at known <;> cases known <;> rfl

theorem infixPrecedence?_symbol (operator : BinaryOperator) :
    infixPrecedence? (.symbol operator.symbol) = some operator.precedence := by
  simp [infixPrecedence?, TokenKind.isKeyword]

theorem depicts_unary {arena : Arena} {operand : ExprId} {tree : ExprTree}
    (depicts : arena.Depicts operand tree) (operator : UnaryOperator) :
    arena.Depicts (Expr.unary operator operand) (.unary operator tree) where
  stored := depicts.stored
  shown := congrArg (ExprTree.unary operator) depicts.shown

theorem depicts_cast {arena : Arena} {operand : ExprId} {tree : ExprTree}
    (depicts : arena.Depicts operand tree) (type : TypeExpr) :
    arena.Depicts (Expr.cast operand type) (.cast tree type.shape) where
  stored := depicts.stored
  shown := congrArg (ExprTree.cast · type.shape) depicts.shown

theorem depicts_binary {arena : Arena} {left right : ExprId}
    {leftTree rightTree : ExprTree} (first : arena.Depicts left leftTree)
    (second : arena.Depicts right rightTree) (operator : BinaryOperator) :
    arena.Depicts (Expr.binary operator left right)
      (.binary operator leftTree rightTree) where
  stored point member := by
    rcases List.mem_cons.mp member with rfl | inRight
    · exact first.stored _ (List.mem_singleton_self _)
    · exact second.stored point inRight
  shown := by
    have leftShown := first.shown
    have rightShown := second.shown
    subst leftShown rightShown
    rfl

theorem depicts_assign {arena : Arena} {target value : ExprId}
    {targetTree valueTree : ExprTree} (first : arena.Depicts target targetTree)
    (second : arena.Depicts value valueTree)
    (operator : Option BinaryOperator) :
    arena.Depicts (Expr.assign operator target value)
      (.assign operator targetTree valueTree) where
  stored point member := by
    rcases List.mem_cons.mp member with rfl | inValue
    · exact first.stored _ (List.mem_singleton_self _)
    · exact second.stored point inValue
  shown := by
    have left := first.shown
    have right := second.shown
    subst left right
    rfl

theorem depicts_conditional {arena : Arena}
    {condition whenTrue whenFalse : ExprId}
    {tree trueTree falseTree : ExprTree}
    (first : arena.Depicts condition tree)
    (second : arena.Depicts whenTrue trueTree)
    (third : arena.Depicts whenFalse falseTree) :
    arena.Depicts (Expr.conditional condition whenTrue whenFalse)
      (.conditional tree trueTree falseTree) where
  stored point member := by
    rcases List.mem_cons.mp member with rfl | inOthers
    · exact first.stored _ (List.mem_singleton_self _)
    · rcases List.mem_cons.mp inOthers with rfl | inLast
      · exact second.stored _ (List.mem_singleton_self _)
      · exact third.stored point inLast
  shown := by
    have condition := first.shown
    have left := second.shown
    have right := third.shown
    subst condition left right
    rfl

theorem yields_unary (reads : ReadsGoals sub) (ready : state.Ready)
    (shallow : state.depth ≤ nestingLimit) :
    Yields state (unary sub) fun id later =>
      ∃ tree, later.arena.Depicts id tree ∧
        ExprGoal.unary.Reads state.depth tree state.kinds later.kinds := by
  refine .inspect ?_
  split
  · next operator known =>
      have found := unaryOperator?_eq known
      refine .inspect (.advance ready found (by simp) fun later leads kinds => ?_)
      refine .bind (reads .unary later trivial leads.ready
        (leads.depth ▸ shallow)) ?_
      rintro id second further ⟨tree, depicts, read, tight, ends⟩
      refine .inspect ((Yields.addExpr further.ready
        (depicts_unary depicts operator)).imp ?_)
      rintro whole last _ ⟨shown, same⟩
      rw [leads.depth] at read
      rw [kinds, same]
      exact ⟨_, shown, read.unary tight, Nat.le_refl _, ends.typed, ends.plain⟩
  · refine .bind (yields_primary reads ready shallow) ?_
    rintro id later leads ⟨tree, depicts, read, isPostfix⟩
    rw [← leads.depth] at read
    refine .inspect ((yields_accesses reads _ leads.ready
      (leads.depth ▸ shallow) (Nat.lt_succ_self _) depicts read
      isPostfix).imp ?_)
    rintro id last _ ⟨tree, depicts, read, isPostfix, stopped⟩
    rw [leads.depth] at read
    have tight := isPostfix.tight
    exact ⟨tree, depicts, read, Nat.le_trans (by decide) tight,
      isPostfix.endsAt stopped⟩

theorem stopped_of_none {least : Nat} {kinds : List TokenKind}
    (noCast : ∀ kind ∈ kinds.head?, kind = .keyword .asWord →
      castPrecedence < least)
    (loose : ∀ kind ∈ kinds.head?, ∀ operator ∈ binaryOperator? kind,
      operator.precedence < least) : Stopped least kinds := by
  intro kind head precedence known
  unfold infixPrecedence? at known
  split at known
  · next isCast =>
      cases known
      exact noCast kind head (isKeyword_iff.mp isCast)
  · obtain ⟨operator, isOperator, rfl⟩ := Option.map_eq_some_iff.mp known
    exact loose kind head operator isOperator

theorem yields_binaryRest (reads : ReadsGoals sub) {least : Nat}
    (positive : 0 < least) {before : List TokenKind} :
    ∀ (bound : Nat) {state : State} {left : ExprId} {tree : ExprTree},
      state.Ready → state.depth ≤ nestingLimit → state.rest.length < bound →
      state.arena.Depicts left tree →
      tree.ReadFrom state.depth before state.kinds →
      least ≤ tree.loosest → tree.EndsAt state.kinds →
      tree.AdmitsAt state.kinds →
        Yields state (binaryRest sub least bound left) fun id later =>
          ∃ tree, later.arena.Depicts id tree ∧
            (ExprGoal.binary least).Reads state.depth tree before later.kinds
  | 0, _, _, _, _, _, enough, _, _, _, _, _ =>
      absurd enough (Nat.not_lt_zero _)
  | bound + 1, state, left, tree, ready, shallow, enough, depicts, read, tight,
      ends, admits => by
      have atHead : ∀ kind ∈ state.kinds.head?, state.current.kind = kind := by
        intro kind head
        rw [State.current_eq ready, Option.mem_def.mp head]
        rfl
      refine .inspect (.ite (fun isCast => ?_) fun noCast => ?_)
      · simp only [Bool.and_eq_true, isKeyword_iff, decide_eq_true_eq] at isCast
        refine .advance ready isCast.1 (by simp) fun later leads kinds => ?_
        refine .bind (yields_typeExpr leads.ready) ?_
        intro type second further typeRead
        have both := leads.trans further
        have target := depicts.extends both.extended ready.closed
        refine .inspect (.bind (.addExpr further.ready
          (depicts_cast target type)) ?_)
        rintro whole last onward ⟨shown, same⟩
        have all := both.trans onward
        have admitted : tree.admits castPrecedence :=
          admits (.keyword .asWord) (by rw [kinds]; rfl) castPrecedence rfl
        rw [kinds] at read
        have whole := read.cast (Nat.lt_of_lt_of_le positive tight) admitted
          typeRead.grammatical last.kinds
        rw [← all.depth] at whole ⊢
        refine yields_binaryRest reads positive bound all.ready
          (all.depth ▸ shallow) ?_ shown whole ?_ ?_ fun _ _ _ _ => trivial
        · have shorter := further.shorter
          rw [← State.kinds_length, ← State.kinds_length] at shorter
          rw [← State.kinds_length] at enough ⊢
          rw [kinds, List.length_cons] at enough
          rw [same]
          omega
        · exact Nat.le_min.mpr ⟨isCast.2, tight⟩
        · rw [same]
          refine ⟨fun type isEnd => Option.some.inj isEnd ▸ typeRead.stopped, ?_⟩
          simp [endType?]
      · refine .inspect ?_
        have castTight : ∀ kind ∈ state.kinds.head?,
            kind = .keyword .asWord → castPrecedence < least := by
          rintro kind head rfl
          have found := atHead _ head
          have notCast : ¬ least ≤ castPrecedence := by
            intro fits
            refine noCast ?_
            simp [found, TokenKind.isKeyword, fits]
          omega
        split
        · next none =>
            refine .pure ready ⟨tree, depicts, read, tight, ?_, ends⟩
            refine stopped_of_none castTight fun kind head operator known => ?_
            rw [atHead kind head] at none
            rw [none] at known
            cases known
        · next operator known =>
            refine .ite (fun loose => ?_) fun fits => ?_
            · refine .pure ready ⟨tree, depicts, read, tight, ?_, ends⟩
              refine stopped_of_none castTight fun kind head other found => ?_
              rw [atHead kind head] at known
              rw [known] at found
              cases found
              exact loose
            · have found := binaryOperator?_eq known
              refine .advance ready found (by simp) fun later leads kinds => ?_
              have sound : (ExprGoal.binary (operator.precedence + 1)).Sound :=
                ⟨Nat.succ_pos _, by cases operator <;> decide⟩
              refine .bind (reads _ later sound leads.ready
                (leads.depth ▸ shallow)) ?_
              rintro right second further
                ⟨rightTree, rightDepicts, rightRead, tighter, stopped, rightEnds⟩
              have both := leads.trans further
              have target := depicts.extends both.extended ready.closed
              refine .inspect (.inspect (.bind (.addExpr further.ready
                (depicts_binary target rightDepicts operator)) ?_))
              rintro whole last onward ⟨shown, same⟩
              have all := both.trans onward
              rw [leads.depth] at rightRead
              have admitted : tree.admits operator.precedence :=
                admits (.symbol operator.symbol) (by rw [kinds]; rfl) _
                  (infixPrecedence?_symbol operator)
              rw [kinds] at read ends
              have whole := read.binary rightRead
                (Nat.lt_of_lt_of_le positive tight) admitted tighter
                ends.typed ends.plain
              rw [← same, ← all.depth] at whole
              rw [← all.depth]
              refine yields_binaryRest reads positive bound all.ready
                (all.depth ▸ shallow) ?_ shown whole ?_ ?_ ?_
              · have shorter := further.shorter
                rw [← State.kinds_length, ← State.kinds_length] at shorter
                rw [← State.kinds_length] at enough ⊢
                rw [kinds, List.length_cons] at enough
                rw [same]
                omega
              · exact Nat.le_min.mpr ⟨Nat.le_of_not_lt fits, tight⟩
              · rw [same]
                exact ⟨rightEnds.typed, rightEnds.plain⟩
              · rw [same]
                intro kind head precedence isInfix
                exact Nat.le_of_lt_succ (stopped kind head precedence isInfix)

theorem yields_binary (reads : ReadsGoals sub) {least : Nat}
    (sound : (ExprGoal.binary least).Sound) (ready : state.Ready)
    (shallow : state.depth ≤ nestingLimit) :
    Yields state (binary sub least) fun id later =>
      ∃ tree, later.arena.Depicts id tree ∧
        (ExprGoal.binary least).Reads state.depth tree state.kinds
          later.kinds := by
  refine .bind (yields_unary reads ready shallow) ?_
  rintro id later leads ⟨tree, depicts, read, tight, ends⟩
  rw [← leads.depth] at read ⊢
  exact .inspect (yields_binaryRest reads sound.1 _ leads.ready
    (leads.depth ▸ shallow) (Nat.lt_succ_self _) depicts read
    (Nat.le_trans sound.2 tight) ends fun _ _ _ _ => admits_of_tight tight _)

/-! ## Conditionals and assignments -/

theorem yields_conditional (reads : ReadsGoals sub) (ready : state.Ready)
    (shallow : state.depth ≤ nestingLimit) :
    Yields state (conditional sub) fun id later =>
      ∃ tree, later.arena.Depicts id tree ∧
        tree.ReadFrom state.depth state.kinds later.kinds := by
  refine .bind (yields_binary reads ⟨by decide, by decide⟩ ready shallow) ?_
  rintro id later leads ⟨tree, depicts, read, positive, _, _⟩
  refine .eatSymbol leads.ready (fun second further question => ?_) fun _ => ?_
  · have both := leads.trans further
    refine .bind (reads .assignment second trivial further.ready
      (both.depth ▸ shallow)) ?_
    rintro whenTrue third onward ⟨trueTree, trueDepicts, trueRead⟩
    refine .bind (.expectSymbol onward.ready) fun _ fourth next colon => ?_
    have earlier := both.trans (onward.trans next)
    refine .bind (reads .assignment fourth trivial next.ready
      (earlier.depth ▸ shallow)) ?_
    rintro whenFalse fifth final ⟨falseTree, falseDepicts, falseRead⟩
    have target := depicts.extends
      (further.trans (onward.trans (next.trans final))).extended
      leads.ready.closed
    have middle := trueDepicts.extends (next.trans final).extended
      onward.ready.closed
    refine .inspect (.inspect ((Yields.addExpr final.ready
      (depicts_conditional target middle falseDepicts)).imp ?_))
    rintro whole last _ ⟨shown, same⟩
    have trueRead : trueTree.ReadFrom second.depth second.kinds third.kinds :=
      trueRead
    have falseRead : falseTree.ReadFrom fourth.depth fourth.kinds
      fifth.kinds := falseRead
    rw [both.depth, colon] at trueRead
    rw [earlier.depth, ← same] at falseRead
    rw [question] at read
    exact ⟨_, shown, read.conditional positive trueRead falseRead⟩
  · exact .pure leads.ready ⟨tree, depicts, read⟩

theorem isAssignable_of_depicts {arena : Arena} (closed : arena.Closed)
    {id : ExprId} {tree : ExprTree} (depicts : arena.Depicts id tree)
    (assignable : isAssignable (arena.expr id).node = true) :
    tree.isAssignable = true := by
  have shown : arena.exprTree id = tree := depicts.shown
  rw [closed.exprTree_eq] at shown
  rw [← shown]
  generalize (arena.expr id).node = node at assignable
  cases node <;> first | rfl | cases assignable

theorem yields_assignment (reads : ReadsGoals sub) (ready : state.Ready)
    (shallow : state.depth ≤ nestingLimit) :
    Yields state (assignment sub) fun id later =>
      ∃ tree, later.arena.Depicts id tree ∧
        tree.ReadFrom state.depth state.kinds later.kinds := by
  refine @Yields.bind _ _ _ _ _ _ _ (fun target => ?_)
    (yields_conditional reads ready shallow) ?_
  · refine .bind fun kind => ?_
    split <;> infer_instance
  rintro id later leads ⟨tree, depicts, read⟩
  refine .inspect ?_
  split
  · exact .pure leads.ready ⟨tree, depicts, read⟩
  · next operator known =>
      refine .inspect (.ite (fun assignable => ?_) fun _ => .failAt)
      have target := isAssignable_of_depicts leads.ready.closed depicts
        assignable
      have found := assignmentOperator?_eq known
      refine .advance leads.ready found (by simp) fun second further kinds => ?_
      have both := leads.trans further
      refine .bind (reads .assignment second trivial further.ready
        (both.depth ▸ shallow)) ?_
      rintro value third onward ⟨valueTree, valueDepicts, valueRead⟩
      have stored := depicts.extends (further.trans onward).extended
        leads.ready.closed
      refine .inspect ((Yields.addExpr onward.ready
        (depicts_assign stored valueDepicts operator)).imp ?_)
      rintro whole last _ ⟨shown, same⟩
      have valueRead : valueTree.ReadFrom second.depth second.kinds
        third.kinds := valueRead
      rw [both.depth, ← same] at valueRead
      rw [found] at known
      rw [kinds] at read
      exact ⟨_, shown, read.assign target known valueRead⟩

/-! ## Goals -/

theorem yields_nested {parser : Parse Result} {after : Result → State → Prop}
    (yields : state.depth + 1 ≤ nestingLimit →
      Yields { state with depth := state.depth + 1 } parser after)
    (blind : ∀ result later, after result later →
      after result { later with depth := state.depth }) :
    Yields state (nested parser) after := by
  unfold Yields nested
  split
  · exact .inl (state.faulty_report _ _)
  · next room =>
      have deeper : state.depth + 1 ≤ nestingLimit := by omega
      rcases yields deeper with isFaulty | ⟨result, given, leads, known⟩
      · exact .inl isFaulty
      · exact .inr ⟨result, given,
          ⟨⟨leads.ready.closed, leads.ready.lexed, leads.ready.finish⟩,
            leads.extended, rfl, leads.shorter⟩, blind _ _ known⟩

theorem yields_goalStep (reads : ReadsGoals sub) : ReadsGoals (goalStep sub) := by
  intro goal state sound ready shallow
  cases goal with
  | expression =>
      change Yields state (nested (assignment sub)) _
      refine yields_nested (fun deeper => ?_) fun _ _ known => known
      have within : State.Ready { state with depth := state.depth + 1 } :=
        ⟨ready.closed, ready.lexed, ready.finish⟩
      exact yields_assignment reads within deeper
  | assignment => exact yields_assignment reads ready shallow
  | binary least => exact yields_binary reads sound ready shallow
  | unary => exact yields_unary reads ready shallow

end

theorem yields_goalAt (bound : Nat) : ReadsGoals (goalAt bound) := by
  induction bound with
  | zero => exact fun _ _ _ _ _ => .failHere
  | succ bound inductionHypothesis => exact yields_goalStep inductionHypothesis

section

variable {state : State}

theorem yields_expression : ReadsItem expression := by
  intro state ready shallow
  exact .inspect (yields_goalAt _ .expression state trivial ready shallow)

theorem yields_standalone (ready : state.Ready) (flat : state.depth = 0) :
    Yields state expression fun id later =>
      ∃ tree, later.arena.Depicts id tree ∧ tree.Standalone ∧
        tree.kinds.head? = state.kinds.head? := by
  have shallow : state.depth ≤ nestingLimit := flat ▸ Nat.zero_le _
  refine (yields_expression state ready shallow).imp ?_
  rintro id later _ ⟨tree, depicts, read⟩
  rw [flat] at read
  exact ⟨tree, depicts, read.enclosed, read.first⟩

theorem yields_decoratorArguments (ready : state.Ready)
    (flat : state.depth = 0) :
    Yields state decoratorArguments fun ids later =>
      ∃ trees, later.arena.Depicts ids trees ∧ AllEnclosed 0 trees := by
  have shallow : state.depth ≤ nestingLimit := flat ▸ Nat.zero_le _
  refine (yields_exprList yields_expression ready shallow).imp ?_
  rintro ids later _ ⟨trees, depicts, read⟩
  rw [flat] at read
  exact ⟨trees, depicts, read.allEnclosed⟩

end

end Grammar

end PluginSurface
