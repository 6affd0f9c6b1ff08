import PluginSurface.Proofs.Eval.Reach
import PluginSurface.Proofs.Grammar.Closure
import PluginSurface.Proofs.Optional.Masking
import PluginSurface.Proofs.Syntax.Depiction

/-!
# Masked programs are well formed

Masking moves the defaults of a function from its parameters into statements
that it adds to the arena. The new nodes refer to each other and to the defaults
once, and the parameters no longer do, so the arena of a well-formed program is
well formed afterwards. With what is known of parsed programs this holds of all
programs that a build comes to see.
-/

namespace PluginSurface

namespace Masking

variable {Result Next : Type}

/-! ## Building -/

/-- If the arena owns the points in `needs` among others, building leaves it
owning what its result refers to and the others. The points in `needs` are then
used up. -/
def Uses (needs : List Point) (building : Building Result)
    (holds : Result → List Point) : Prop :=
  ∀ (arena : Arena) (others : List Point), arena.Owns (needs ++ others) →
    (building arena).2.Owns (holds (building arena).1 ++ others)

namespace Uses

variable {needs : List Point} {building : Building Result}
  {next : Result → Building Next} {holds : Result → List Point}
  {after : Next → List Point}

theorem pure {result : Result} (known : Within (holds result) needs) :
    Uses needs (Pure.pure result) holds :=
  fun _ others owns => owns.within (known.append (.refl others))

/-- What is not needed may be there. -/
theorem among {used : List Point} (uses : Uses used building holds)
    (known : Within used needs) : Uses needs building holds :=
  fun arena others owns =>
    uses arena others (owns.within (known.append (.refl others)))

/-- The first computation uses up a part of what is needed and leaves the
rest. -/
theorem bindUsing {used kept : List Point} (first : Uses used building holds)
    (known : Within (used ++ kept) needs)
    (second : ∀ result, Uses (holds result ++ kept) (next result) after) :
    Uses needs (building >>= next) after := by
  intro arena others owns
  have split : Within (used ++ (kept ++ others)) (needs ++ others) := by
    rw [← List.append_assoc]
    exact known.append (.refl others)
  have owned := first arena (kept ++ others) (owns.within split)
  rw [← List.append_assoc] at owned
  exact second _ _ others owned

/-- The first computation uses up nothing of what is needed. -/
theorem bind (first : Uses [] building holds)
    (second : ∀ result, Uses (holds result ++ needs) (next result) after) :
    Uses needs (building >>= next) after :=
  bindUsing first (.refl needs) second

/-- The first computation uses up all that is needed. -/
theorem bindAll (first : Uses needs building holds)
    (second : ∀ result, Uses (holds result) (next result) after) :
    Uses needs (building >>= next) after := by
  have splits : Within (needs ++ []) needs := by simp
  refine bindUsing first splits fun result => ?_
  rw [List.append_nil]
  exact second result

theorem addExpr {span : Span} {node : Expr}
    (known : Within (node.children.map Point.expr) needs) :
    Uses needs (Masking.addExpr span node) fun id => [.expr id] :=
  fun _ others owns => owns.addExpr span (known.append (.refl others))

theorem addStmt {span : Span} {node : Stmt} (known : Within node.points needs) :
    Uses needs (Masking.addStmt span node) fun id => [.stmt id] :=
  fun _ others owns => owns.addStmt span (known.append (.refl others))

end Uses

variable {span : Span}

attribute [local simp] List.count_cons

theorem uses_addInteger (value : Nat) :
    Uses [] (addInteger span value) fun id => [.expr id] :=
  .addExpr (by simp [Expr.children])

theorem uses_maskFrom (index : Nat) :
    Uses [] (maskFrom span index) fun id => [.expr id] := by
  refine .bind (.addExpr (by simp [Expr.children])) fun mask => ?_
  split
  · exact .pure (by simp)
  · refine .bind (uses_addInteger index) fun distance =>
      .bindAll (.addExpr ?_) fun shifted => .addExpr ?_
    · simp +arith [Expr.children]
    · simp [Expr.children]

theorem uses_unsuppliedTest (index : Nat) :
    Uses [] (unsuppliedTest span index) fun id => [.expr id] := by
  refine .bind (uses_maskFrom index) fun bits =>
    .bind (uses_addInteger 1) fun one =>
      .bindAll (.addExpr ?_) fun bit => .bindAll (.addExpr ?_) fun paren =>
        .bind (uses_addInteger 0) fun zero => .addExpr ?_
  · simp +arith [Expr.children]
  · simp [Expr.children]
  · simp +arith [Expr.children]

/-- The assignment takes over the default. -/
theorem uses_guardStatement (index : Nat) (name : String)
    (initializer : ExprId) :
    Uses [.expr initializer] (guardStatement span index name initializer)
      fun id => [.stmt id] := by
  refine .bind (uses_unsuppliedTest index) fun condition =>
    .bind (.addExpr ?_) fun target =>
      .bindUsing (.addExpr (.refl _)) (?_ : Within (_ ++ [.expr condition]) _)
        fun assignment =>
          .bindUsing (.addStmt (.refl _))
            (?_ : Within (_ ++ [.expr condition]) _) fun whenTrue =>
              .addStmt ?_
  · simp [Expr.children]
  · simp +arith [Expr.children]
  · simp [Stmt.points]
  · simp +arith [Stmt.points]

theorem uses_guardStatements (params : List Param) (index : Nat) :
    Uses (params.flatMap Param.points) (guardStatements span index params)
      fun ids => ids.map Point.stmt := by
  induction params generalizing index with
  | nil => exact .pure (.refl [])
  | cons param rest inductionHypothesis =>
      unfold guardStatements
      split
      · refine (inductionHypothesis (index + 1)).among ?_
        simp +arith
      · rename_i initializer default
        have points : param.points = [.expr initializer] := by
          simp [Param.points, optionalPoints, default]
        rw [List.flatMap_cons, points]
        refine .bindUsing (uses_guardStatement index _ initializer) (.refl _)
          fun id => .bindUsing (inductionHypothesis (index + 1))
            (?_ : Within (_ ++ [.stmt id]) _) fun ids => .pure ?_
        · simp +arith
        · simp +arith

/-! ## Functions and programs -/

variable {arena after : Arena} {others : List Point}

theorem points_withoutInitializer (params : List Param) :
    (params.map withoutInitializer).flatMap Param.points = [] := by
  simp [withoutInitializer, Param.points, optionalPoints]

theorem uses_withMask (function : FunctionDecl) :
    Uses function.points (withMask function) FunctionDecl.points := by
  refine .bindUsing (uses_guardStatements function.params 0)
    (?_ : Within (_ ++ (function.decorators.flatMap Decorator.points ++
      function.body.toList.flatMap Block.points)) _) fun guards => .pure ?_
  · simp +arith [FunctionDecl.points, FunctionDecl.entries]
  · cases body : function.body <;>
      simp +arith [FunctionDecl.points, FunctionDecl.entries, Block.points,
        points_withoutInitializer, maskParam, Param.points, optionalPoints]

theorem MasksFunction.owns {function masked : FunctionDecl}
    (masks : MasksFunction arena function masked after)
    (owns : arena.Owns (function.points ++ others)) :
    after.Owns (masked.points ++ others) := by
  cases masks with
  | plain => exact owns
  | host =>
      refine owns.within (.append (fun point => ?_) (.refl others))
      simp +arith [FunctionDecl.points, FunctionDecl.entries,
        withoutInitializers, points_withoutInitializer]
  | guarded => exact uses_withMask function arena others owns

theorem owns_swap {first second : List Point}
    (owns : arena.Owns (first ++ (second ++ others))) :
    arena.Owns (second ++ (first ++ others)) :=
  owns.within (by simp +arith)

theorem MasksItems.owns {kind : SourceKind} {context later : MaskingContext}
    {items masked : List Item}
    (masks : MasksItems kind context arena items masked after later)
    (owns : arena.Owns (items.flatMap Item.points ++ others)) :
    after.Owns (masked.flatMap Item.points ++ others) := by
  induction masks generalizing others with
  | nil => exact owns
  | selected _ _ step _ inductionHypothesis =>
      rw [List.flatMap_cons, List.append_assoc] at owns ⊢
      have first := step.owns owns
      exact owns_swap (inductionHypothesis (owns_swap first))
  | skipped _ _ inductionHypothesis =>
      rw [List.flatMap_cons, List.append_assoc] at owns ⊢
      exact owns_swap (inductionHypothesis (owns_swap owns))

theorem MasksProgram.wellFormed {program masked : Program}
    {context later : MaskingContext}
    (masks : MasksProgram context program masked later)
    (wellFormed : program.WellFormed) : masked.WellFormed := by
  cases masks with
  | library => exact wellFormed
  | own _ steps =>
      rw [Program.wellFormed_iff] at wellFormed ⊢
      rw [← List.append_nil program.points] at wellFormed
      have owns := steps.owns wellFormed
      rwa [List.append_nil] at owns

theorem MasksPrograms.wellFormed {programs masked : List Program}
    {context later : MaskingContext}
    (masks : MasksPrograms context programs masked later)
    (wellFormed : ∀ program ∈ programs, program.WellFormed) :
    ∀ program ∈ masked, program.WellFormed := by
  induction masks with
  | nil => exact nofun
  | cons step _ inductionHypothesis =>
      rw [List.forall_mem_cons] at wellFormed ⊢
      exact ⟨step.wellFormed wellFormed.1, inductionHypothesis wellFormed.2⟩

end Masking

/-! ## Produced programs -/

/-- The programs that a build comes to see: parsed ones, and what masking makes
of such programs. -/
inductive Program.Produced : Program → Prop where
  | parsed {source : SourceText} {kind : SourceKind} {program : Program}
      (parses : source.parse kind = .ok program) : Produced program
  | masked {programs masked : List Program} {context : MaskingContext}
      {program : Program}
      (produced : ∀ source ∈ programs, Produced source)
      (succeeds : maskSources programs = (.ok masked, context))
      (member : program ∈ masked) : Produced program

/-- Every produced program is well formed. So everything that can be reached in
it is stored, and the trees at its expressions and statements are finite: they
are the same with every bound on their height from the number of the node on. -/
theorem Program.wellFormed_of_produced {program : Program}
    (produced : program.Produced) :
    program.WellFormed ∧
      (∀ point, program.Contains point → program.arena.Has point) ∧
      (∀ id bound, program.Contains (.expr id) → id.index < bound →
        program.arena.exprTreeAt bound id = program.arena.exprTree id) ∧
      ∀ id bound, program.Contains (.stmt id) → id.index < bound →
        program.arena.stmtTreeAt bound id = program.arena.stmtTree id := by
  have wellFormed : program.WellFormed := by
    induction produced with
    | parsed parses => exact SourceText.wellFormed_of_parse parses
    | masked _ succeeds member inductionHypothesis =>
        have masks := Masking.masksPrograms_of_maskSources succeeds
        exact masks.wellFormed inductionHypothesis _ member
  have closed := wellFormed.closed
  refine ⟨wellFormed, fun point contains => contains.has closed, ?_, ?_⟩
  · intro id bound contains high
    exact closed.arena.exprTreeAt_eq (contains.has closed) high
  · intro id bound contains high
    exact closed.arena.stmtTreeAt_eq (contains.has closed) high

namespace Sample

/-- A function with a default. -/
def defaulted : SourceText :=
  ⟨"assembly/index.ts",
    "export function f(a: i32 = 1): i32 \x7b return a + 2; \x7d"⟩

/-- The numbers of references to expressions and statements in what masking
makes of a source. -/
def maskedCounts (source : SourceText) : Option (Nat × Nat) :=
  match source.parse .entry with
  | .ok program =>
      match (maskSources [program]).1 with
      | .ok [masked] =>
          some (masked.points.length, masked.arena.references.length)
      | _ => none
  | _ => none

end Sample

/-- The guard of a default is well formed beside the body it stands before. -/
theorem wellFormed_of_produced_of_defaulted :
    ∃ parsed masked, Sample.defaulted.parse .entry = .ok parsed ∧
      (maskSources [parsed]).1 = .ok [masked] ∧
        masked.points.length = 2 ∧ masked.arena.references.length = 13 ∧
          masked.WellFormed := by
  have counts : Sample.maskedCounts Sample.defaulted = some (2, 13) := by
    decide +kernel
  unfold Sample.maskedCounts at counts
  split at counts
  · rename_i parsed parses
    split at counts
    · rename_i masked succeeds
      have lengths := Prod.mk.inj (Option.some.inj counts)
      have produced : masked.Produced :=
        .masked (List.forall_mem_singleton.mpr (.parsed parses))
          (Prod.ext succeeds rfl) (List.mem_singleton.mpr rfl)
      exact ⟨parsed, masked, parses, succeeds, lengths.1, lengths.2,
        (Program.wellFormed_of_produced produced).1⟩
    · cases counts
  · cases counts

end PluginSurface
