import PluginSurface.Optional.Masking
import PluginSurface.Proofs.Syntax.Closure

/-!
# The guards of a function

What the statements look like that masking puts before a body: for each
parameter with a default, in order, the test of its bit of the mask and the
assignment of its default. Building them only adds nodes, so what holds of the
arena at one stage still holds when the next guard was added.
-/

namespace PluginSurface

/-! ## Statements that last -/

/-- A statement about an arena that stays true when nodes are added. -/
structure Lasting where
  Holds : Arena → Prop
  lasts : ∀ {smaller larger : Arena}, smaller.Extends larger →
    Holds smaller → Holds larger

namespace Arena

def StoresExpr (arena : Arena) (id : ExprId) (node : Expr) : Prop :=
  arena.Has (.expr id) ∧ (arena.expr id).node = node

def StoresStmt (arena : Arena) (id : StmtId) (node : Stmt) : Prop :=
  arena.Has (.stmt id) ∧ (arena.stmt id).node = node

variable {smaller larger : Arena}

theorem Extends.storesExpr (extended : smaller.Extends larger) {id : ExprId}
    {node : Expr} (stores : smaller.StoresExpr id node) :
    larger.StoresExpr id node :=
  ⟨extended.has stores.1, by rw [extended.expr_eq stores.1]; exact stores.2⟩

theorem Extends.storesStmt (extended : smaller.Extends larger) {id : StmtId}
    {node : Stmt} (stores : smaller.StoresStmt id node) :
    larger.StoresStmt id node :=
  ⟨extended.has stores.1, by rw [extended.stmt_eq stores.1]; exact stores.2⟩

theorem storesExpr_addExpr (arena : Arena) (node : Expr) (span : Span) :
    (arena.addExpr node span).2.StoresExpr (arena.addExpr node span).1 node :=
  ⟨arena.has_addExpr node span, by
    simp [addExpr, expr, Array.getD_eq_getD_getElem?]⟩

theorem storesStmt_addStmt (arena : Arena) (node : Stmt) (span : Span) :
    (arena.addStmt node span).2.StoresStmt (arena.addStmt node span).1 node :=
  ⟨arena.has_addStmt node span, by
    simp [addStmt, stmt, Array.getD_eq_getD_getElem?]⟩

end Arena

namespace Lasting

def nothing : Lasting :=
  ⟨fun _ => True, fun _ _ => trivial⟩

def both (first second : Lasting) : Lasting :=
  ⟨fun arena => first.Holds arena ∧ second.Holds arena,
    fun extended holds =>
      ⟨first.lasts extended holds.1, second.lasts extended holds.2⟩⟩

def expr (id : ExprId) (node : Expr) : Lasting :=
  ⟨fun arena => arena.StoresExpr id node,
    fun extended stores => extended.storesExpr stores⟩

def stmt (id : StmtId) (node : Stmt) : Lasting :=
  ⟨fun arena => arena.StoresStmt id node,
    fun extended stores => extended.storesStmt stores⟩

end Lasting

namespace Masking

variable {Result Next : Type}

/-- If the arena is as needed, building only adds nodes to it and leaves it as
told of the result. -/
def Builds (needs : Lasting) (building : Building Result)
    (gives : Result → Lasting) : Prop :=
  ∀ arena : Arena, needs.Holds arena →
    arena.Extends (building arena).2 ∧
      (gives (building arena).1).Holds (building arena).2

namespace Builds

variable {needs : Lasting}

theorem pure {result : Result} {gives : Result → Lasting}
    (known : ∀ {arena : Arena}, needs.Holds arena →
      (gives result).Holds arena) :
    Builds needs (Pure.pure result) gives :=
  fun _ holds => ⟨.refl _, known holds⟩

theorem bind {building : Building Result} {next : Result → Building Next}
    {middle : Result → Lasting} {gives : Next → Lasting}
    (first : Builds needs building middle)
    (second : ∀ result, Builds (middle result) (next result) gives) :
    Builds needs (building >>= next) gives := by
  intro arena holds
  obtain ⟨extended, held⟩ := first arena holds
  obtain ⟨further, gained⟩ := second _ _ held
  exact ⟨extended.trans further, gained⟩

theorem addExpr {span : Span} {node : Expr} :
    Builds needs (Masking.addExpr span node) fun id =>
      (Lasting.expr id node).both needs := by
  intro arena holds
  have extended := arena.extends_addExpr node span
  have stores := arena.storesExpr_addExpr node span
  exact ⟨extended, stores, needs.lasts extended holds⟩

theorem addStmt {span : Span} {node : Stmt} :
    Builds needs (Masking.addStmt span node) fun id =>
      (Lasting.stmt id node).both needs := by
  intro arena holds
  have extended := arena.extends_addStmt node span
  have stores := arena.storesStmt_addStmt node span
  exact ⟨extended, stores, needs.lasts extended holds⟩

theorem imp {building : Building Result} {gives weaker : Result → Lasting}
    (builds : Builds needs building gives)
    (weakens : ∀ {result : Result} {arena : Arena},
      (gives result).Holds arena → (weaker result).Holds arena) :
    Builds needs building weaker :=
  fun arena holds =>
    ⟨(builds arena holds).1, weakens (builds arena holds).2⟩

end Builds

/-! ## The test of a bit -/

def integerNode (value : Nat) : Expr :=
  .literal (.integer (UInt64.ofNat value) (toString value))

/-- An expression is the mask from a position on. -/
inductive MaskFrom (arena : Arena) : Nat → ExprId → Prop where
  | whole {id : ExprId}
      (mask : arena.StoresExpr id (.identifier maskParameter)) :
      MaskFrom arena 0 id
  | shifted {index : Nat} {id shift mask distance : ExprId}
      (later : index ≠ 0) (paren : arena.StoresExpr id (.paren shift))
      (operation : arena.StoresExpr shift (.binary .shiftRight mask distance))
      (operand : arena.StoresExpr mask (.identifier maskParameter))
      (count : arena.StoresExpr distance (integerNode index)) :
      MaskFrom arena index id

/-- An expression tests that the mask does not mark a position. -/
inductive UnsuppliedTest (arena : Arena) (index : Nat) (id : ExprId) :
    Prop where
  | equal {bits one bit paren zero : ExprId} (mask : MaskFrom arena index bits)
      (oneNode : arena.StoresExpr one (integerNode 1))
      (cut : arena.StoresExpr bit (.binary .bitAnd bits one))
      (parenNode : arena.StoresExpr paren (.paren bit))
      (zeroNode : arena.StoresExpr zero (integerNode 0))
      (test : arena.StoresExpr id (.binary .equal paren zero)) :
      UnsuppliedTest arena index id

/-- A statement assigns a default to a parameter that was not supplied. -/
inductive GuardStatement (arena : Arena) (index : Nat) (name : String)
    (initializer : ExprId) (id : StmtId) : Prop where
  | branch {condition assigned assignment : ExprId} {whenTrue : StmtId}
      (test : UnsuppliedTest arena index condition)
      (target : arena.StoresExpr assigned (.identifier name))
      (assign : arena.StoresExpr assignment
        (.assign none assigned initializer))
      (statement : arena.StoresStmt whenTrue (.expression assignment))
      (node : arena.StoresStmt id (.branch condition whenTrue none)) :
      GuardStatement arena index name initializer id

/-- Statements are the guards of the parameters from a position on. -/
inductive Guards (arena : Arena) : Nat → List Param → List StmtId → Prop where
  | nil {index : Nat} : Guards arena index [] []
  | required {index : Nat} {param : Param} {params : List Param}
      {ids : List StmtId} (noDefault : param.initializer = none)
      (rest : Guards arena (index + 1) params ids) :
      Guards arena index (param :: params) ids
  | optional {index : Nat} {param : Param} {params : List Param}
      {initializer : ExprId} {id : StmtId} {ids : List StmtId}
      (default : param.initializer = some initializer)
      (guard : GuardStatement arena index param.name.text initializer id)
      (rest : Guards arena (index + 1) params ids) :
      Guards arena index (param :: params) (id :: ids)

variable {smaller larger : Arena}

theorem MaskFrom.lasts (extended : smaller.Extends larger) {index : Nat}
    {id : ExprId} (mask : MaskFrom smaller index id) :
    MaskFrom larger index id := by
  cases mask with
  | whole mask => exact .whole (extended.storesExpr mask)
  | shifted later paren operation operand count =>
      exact .shifted later (extended.storesExpr paren)
        (extended.storesExpr operation) (extended.storesExpr operand)
        (extended.storesExpr count)

theorem UnsuppliedTest.lasts (extended : smaller.Extends larger) {index : Nat}
    {id : ExprId} (test : UnsuppliedTest smaller index id) :
    UnsuppliedTest larger index id := by
  obtain ⟨mask, one, cut, paren, zero, test⟩ := test
  exact .equal (mask.lasts extended) (extended.storesExpr one)
    (extended.storesExpr cut) (extended.storesExpr paren)
    (extended.storesExpr zero) (extended.storesExpr test)

theorem GuardStatement.lasts (extended : smaller.Extends larger) {index : Nat}
    {name : String} {initializer : ExprId} {id : StmtId}
    (guard : GuardStatement smaller index name initializer id) :
    GuardStatement larger index name initializer id := by
  obtain ⟨test, target, assign, statement, node⟩ := guard
  exact .branch (test.lasts extended) (extended.storesExpr target)
    (extended.storesExpr assign) (extended.storesStmt statement)
    (extended.storesStmt node)

theorem Guards.lasts (extended : smaller.Extends larger) {index : Nat}
    {params : List Param} {ids : List StmtId}
    (guards : Guards smaller index params ids) :
    Guards larger index params ids := by
  induction guards with
  | nil => exact .nil
  | required noDefault _ inductionHypothesis =>
      exact .required noDefault inductionHypothesis
  | optional default guard _ inductionHypothesis =>
      exact .optional default (guard.lasts extended) inductionHypothesis

def lastingMask (index : Nat) (id : ExprId) : Lasting :=
  ⟨fun arena => MaskFrom arena index id,
    fun extended mask => mask.lasts extended⟩

def lastingTest (index : Nat) (id : ExprId) : Lasting :=
  ⟨fun arena => UnsuppliedTest arena index id,
    fun extended test => test.lasts extended⟩

def lastingGuard (index : Nat) (name : String) (initializer : ExprId)
    (id : StmtId) : Lasting :=
  ⟨fun arena => GuardStatement arena index name initializer id,
    fun extended guard => guard.lasts extended⟩

def lastingGuards (index : Nat) (params : List Param) (ids : List StmtId) :
    Lasting :=
  ⟨fun arena => Guards arena index params ids,
    fun extended guards => guards.lasts extended⟩

/-! ## Building the guards -/

section

variable {span : Span} {needs : Lasting}

theorem builds_maskFrom (index : Nat) :
    Builds needs (maskFrom span index) fun id =>
      Lasting.both (lastingMask index id) needs := by
  refine .bind .addExpr fun mask => ?_
  split
  · subst index
    exact .pure fun ⟨mask, held⟩ => ⟨.whole mask, held⟩
  · rename_i later
    exact .bind .addExpr fun distance => .bind .addExpr fun shift =>
      Builds.addExpr.imp fun ⟨paren, operation, count, operand, held⟩ =>
        ⟨.shifted later paren operation operand count, held⟩

theorem builds_unsuppliedTest (index : Nat) :
    Builds needs (unsuppliedTest span index) fun id =>
      Lasting.both (lastingTest index id) needs :=
  .bind (builds_maskFrom index) fun _ => .bind .addExpr fun _ =>
    .bind .addExpr fun _ => .bind .addExpr fun _ =>
      .bind .addExpr fun _ => Builds.addExpr.imp
        fun ⟨test, zero, paren, cut, one, mask, held⟩ =>
          ⟨.equal mask one cut paren zero test, held⟩

theorem builds_guardStatement (index : Nat) (name : String)
    (initializer : ExprId) :
    Builds needs (guardStatement span index name initializer) fun id =>
      Lasting.both (lastingGuard index name initializer id) needs :=
  .bind (builds_unsuppliedTest index) fun _ =>
    .bind .addExpr fun _ => .bind .addExpr fun _ =>
      .bind .addStmt fun _ => Builds.addStmt.imp
        fun ⟨node, statement, assign, target, test, held⟩ =>
          ⟨.branch test target assign statement node, held⟩

theorem builds_guardStatements {params : List Param} (index : Nat) :
    Builds needs (guardStatements span index params) fun ids =>
      Lasting.both (lastingGuards index params ids) needs := by
  induction params generalizing index needs with
  | nil => exact .pure fun held => ⟨.nil, held⟩
  | cons param rest inductionHypothesis =>
      unfold guardStatements
      split
      · rename_i noDefault
        exact (inductionHypothesis (index + 1)).imp fun ⟨guards, held⟩ =>
          ⟨.required noDefault guards, held⟩
      · rename_i initializer default
        refine .bind (builds_guardStatement index _ initializer) fun id =>
          .bind (inductionHypothesis (index + 1)) fun ids => .pure ?_
        exact fun ⟨guards, guard, held⟩ =>
          ⟨.optional default guard guards, held⟩

end

/-- What a function becomes that gains a mask, in the arena that its guards are
added to. -/
theorem withMask_spec (function : FunctionDecl) (arena : Arena) :
    ∃ ids, arena.Extends (withMask function arena).2 ∧
      Guards (withMask function arena).2 0 function.params ids ∧
        (withMask function arena).1 =
          { function with
            params := function.params.map withoutInitializer ++
              [maskParam function.span]
            body := function.body.map fun body =>
              { body with statements := ids ++ body.statements } } := by
  have builds : Builds .nothing
      (guardStatements function.span 0 function.params) fun ids =>
        Lasting.both (lastingGuards 0 function.params ids) .nothing :=
    builds_guardStatements 0
  obtain ⟨extended, guards, -⟩ := builds arena trivial
  exact ⟨_, extended, guards, rfl⟩

end Masking

end PluginSurface
