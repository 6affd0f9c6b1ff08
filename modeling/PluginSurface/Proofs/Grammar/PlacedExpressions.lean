import PluginSurface.Proofs.Grammar.SpanRules

/-!
# Types and expressions nest

A production of the grammar gives what it reads the span from its first token to
its last one, or the span of two of its parts, and what it read in between
stands between the two. So every type annotation and every expression that is
read nests.
-/

namespace PluginSurface.Grammar

open Parse

variable {Result : Type} {start : Span} {needs : List Fact}

attribute [local simp] List.subset_def or_imp

/-! ## Tokens and lists -/

theorem places_advance : Places start needs advance noFacts :=
  .quiet fun _ tidy => tidy.onto_advance

theorem eats_symbol (mark : Symbol) : Eats (eatSymbol mark) := by
  intro state
  rw [eatSymbol_eq]
  split
  · exact .inr ⟨rfl, isSymbol_ne_end ‹_›⟩
  · exact .inl rfl

theorem eats_keyword (word : Keyword) : Eats (eatKeyword word) := by
  intro state
  rw [eatKeyword_eq]
  split
  · exact .inr ⟨rfl, isKeyword_ne_end ‹_›⟩
  · exact .inl rfl

theorem eats_identifier (name : String) : Eats (eatIdentifier name) := by
  intro state
  cases found : state.current.kind.isIdentifier name with
  | false =>
      refine .inl ?_
      simp [eatIdentifier, currentKind, Bind.bind, Parse.inspect, found, pure]
  | true =>
      have notEnd : state.current.kind ≠ .endOfFile := by
        intro isEnd
        rw [isEnd] at found
        cases found
      refine .inr ⟨?_, notEnd⟩
      simp [eatIdentifier, currentKind, Bind.bind, Parse.inspect, found, pure,
        advance]

theorem places_expectSymbol {mark : Symbol} :
    Places start needs (expectSymbol mark) noFacts :=
  .bind .inspect fun _ => .ite places_advance .fail

theorem places_expectKeyword {word : Keyword} :
    Places start needs (expectKeyword word) noFacts :=
  .bind .inspect fun _ => .ite places_advance .fail

theorem placesIn_takeName {state : State} {text : String}
    (notEnd : state.current.kind ≠ .endOfFile) :
    PlacesIn state start needs (takeName text) (sitsAs Part.name) := by
  intro knows
  have onto := knows.tidy.onto_advance
  have shorter := State.length_advance_lt knows.tidy.ends notEnd
  refine ⟨onto, ?_⟩
  rintro _ ⟨⟩ fact member
  cases List.mem_singleton.mp member
  exact ⟨.name _, knows.begun.1, knows.tidy.current_forward,
    onto.taken shorter⟩

theorem places_expectIdentifier :
    Places start needs expectIdentifier (sitsAs Part.name) := by
  refine .look fun state => ?_
  split
  · next found => exact placesIn_takeName (by simp [found])
  · next found =>
      split
      · exact placesIn_takeName (by simp [found])
      · exact Places.fail state
  · exact Places.fail state

theorem places_expectPropertyName :
    Places start needs expectPropertyName (sitsAs Part.name) := by
  refine .look fun state => ?_
  split
  · next found => exact placesIn_takeName (by simp [found])
  · next found => exact placesIn_takeName (by simp [found])
  · exact Places.fail state

theorem places_expectString : Places start needs expectString noFacts := by
  refine .bind .inspect fun kind => ?_
  split
  · exact .bind places_advance fun _ => .skip
  · exact .fail

theorem places_expectClosingAngle :
    Places start needs expectClosingAngle noFacts := by
  refine .look fun state => ?_
  split
  · next mark found =>
      split
      · next half splits =>
          intro knows
          exact ⟨knows.tidy.onto_splitAngle found splits,
            fun _ _ => List.forall_mem_nil _⟩
      · exact places_expectSymbol state
  · exact places_expectSymbol state

section

variable {item : Parse Result} {holds : Result → List Fact}

theorem places_itemsUntil {closing : Symbol}
    (places : Places start [] item holds) (bound : Nat) :
    Places start [] (itemsUntil closing item bound) fun results =>
      results.flatMap holds := by
  induction bound with
  | zero => exact .fail
  | succ bound inductionHypothesis =>
      refine .bind .inspect fun isClosed => .bind .inspect fun isEnd =>
        .ite .empty ?_
      refine .bind places fun first => .ifEats (eats_symbol _) ?_
        (.pure (by simp +contextual))
      exact .bind inductionHypothesis fun rest => .pure (by simp +contextual)

theorem places_listUntil {closing : Symbol}
    (places : Places start [] item holds) :
    Places start [] (listUntil closing item) fun results =>
      results.flatMap holds :=
  .bind .inspect fun _ => .bind (places_itemsUntil places _) fun _ =>
    .bind places_expectSymbol fun _ => .pure (by simp +contextual)

theorem places_separatedItems (places : Places start [] item holds)
    (bound : Nat) :
    Places start [] (separatedItems item bound) fun results =>
      results.flatMap holds := by
  induction bound with
  | zero => exact .fail
  | succ bound inductionHypothesis =>
      refine .bind places fun first => .ifEats (eats_symbol _) ?_
        (.pure (by simp +contextual))
      exact .bind inductionHypothesis fun rest => .pure (by simp +contextual)

theorem places_separated (places : Places start [] item holds) :
    Places start [] (separated item) fun results => results.flatMap holds :=
  .bind .inspect fun _ => places_separatedItems places _

end

/-! ## Types -/

theorem places_typeSegment :
    Places start needs typeSegment (sitsAs Part.name) := by
  refine .look fun state => ?_
  split
  · next found => exact placesIn_takeName (isKeyword_ne_end found)
  · exact places_expectIdentifier state

theorem takes_typeSegment : Takes typeSegment := by
  refine .inspect fun state => ?_
  split
  · next found => exact takesIn_takeName (isKeyword_ne_end found)
  · exact takes_expectIdentifier state

theorem places_moreSegments (bound : Nat) :
    Places start [] (moreSegments bound) fun segments =>
      segments.flatMap (sitsAs Part.name) := by
  induction bound with
  | zero => exact .fail
  | succ bound inductionHypothesis =>
      refine .ifEats (eats_symbol _) ?_ .empty
      exact .bind places_typeSegment fun _ =>
        .bind inductionHypothesis fun _ => .pure (by simp +contextual)

section

variable {nested : Parse TypeExpr}

-- A parser with many steps takes large instances.
set_option synthInstance.maxSize 4096 in
theorem takes_primaryType [Steady nested] : Takes (primaryType nested) := by
  unfold primaryType
  dsimp only
  refine .inspect fun state ends result final ran => ?_
  rw [eatSymbol_bind] at ran
  split at ran
  · next found =>
      have shorter := State.length_advance_lt ends (isSymbol_ne_end found)
      exact Nat.lt_of_le_of_lt (Steady.of_state ran).length_le shorter
  · exact takes_typeSegment.bind state ends result final ran

theorem inside_withSpan (type : TypeExpr) (span : Span) :
    (type.withSpan span).inside = type.inside := by
  cases type <;> rfl

theorem span_withSpan (type : TypeExpr) (span : Span) :
    (type.withSpan span).span = span := by
  cases type <;> rfl

theorem places_primaryType
    (places : ∀ start, Places start [] nested (sitsAs Part.type)) :
    Places start [] (primaryType nested) (sitsAs Part.type) := by
  refine .fresh fun own => .ifEats (eats_symbol _) ?_ ?_
  · refine .bind (places own) fun inner => .bind places_expectSymbol fun _ => ?_
    refine .wholeOf (by simp +contextual) (fun span _ => span_withSpan inner span)
      (fun _ _ => trivial) fun span state knows part member => ?_
    have isInside : part ∈ inner.inside := by
      rwa [← inside_withSpan inner span]
    obtain ⟨nests, -⟩ :=
      @State.Knows.sits _ _ _ knows (.type inner) (by simp)
    have outer := @State.Knows.whole_contains _ _ _ knows (.type inner)
      (by simp)
    exact ⟨outer.trans (nests.contains part isInside),
      nests.further part isInside⟩
  · refine .bindTaking takes_typeSegment places_typeSegment fun first =>
      .bind .inspect fun _ => .bind (places_moreSegments _) fun more =>
        .ifEats (eats_symbol _) ?_ ?_
    · refine .bind (places_separated (places own)) fun arguments =>
        .bind places_expectClosingAngle fun _ => .pureBind ?_
      exact .whole (by simp +contextual) (fun _ _ => rfl) (fun _ _ => trivial)
        (by simp +contextual [Part.inside, TypeExpr.inside])
    · exact .pureBind (.whole (by simp +contextual) (fun _ _ => rfl)
        (fun _ _ => trivial)
        (by simp +contextual [Part.inside, TypeExpr.inside]))

theorem places_arraySuffixes (bound : Nat) (type : TypeExpr) :
    Places start [.placed start, .sits (.type type)]
      (arraySuffixes start bound type) (sitsAs Part.type) := by
  induction bound generalizing type with
  | zero => exact .pure (by simp +contextual)
  | succ bound inductionHypothesis =>
      refine .bind .inspect fun _ => .bind .inspect fun _ =>
        .ite ?_ (.pure (by simp +contextual))
      refine .bind places_advance fun _ => .bind places_advance fun _ => ?_
      exact .wholeThen Part.type (by simp +contextual) (fun _ _ => rfl)
        (fun _ _ => trivial)
        (by simp +contextual [Part.inside, TypeExpr.inside]) fun whole =>
          (inductionHypothesis whole).uses (by simp +contextual)

theorem places_typeStep [Steady nested]
    (places : ∀ start, Places start [] nested (sitsAs Part.type)) :
    Places start [] (typeStep nested) (sitsAs Part.type) := by
  refine .fresh fun own =>
    .bindTaking takes_primaryType (places_primaryType places) fun type =>
      .bind .inspect fun _ =>
        .bindUsing (places_arraySuffixes _ type) (by simp +contextual) fun type =>
          .bind .inspect fun _ => .bind .inspect fun _ =>
            .ite ?_ (.pure (by simp +contextual))
  exact .bind places_advance fun _ => .bind places_advance fun _ =>
    .whole (by simp +contextual) (fun _ _ => rfl) (fun _ _ => trivial)
      (by simp +contextual [Part.inside, TypeExpr.inside])

theorem places_typeAt :
    ∀ bound start, Places start [] (typeAt bound) (sitsAs Part.type)
  | 0, _ => .fail
  | bound + 1, _ => places_typeStep (places_typeAt bound)

theorem places_typeExpr : Places start [] typeExpr (sitsAs Part.type) :=
  .bind .inspect fun _ => places_typeAt _ _

end

/-! ## Expressions -/

section

variable {sub : ExprGoal → Parse ExprId}

theorem places_arguments
    (places : ∀ goal start, Places start [] (sub goal) (sitsAs Part.expr)) :
    Places start [] (arguments sub) fun values =>
      values.flatMap (sitsAs Part.expr) :=
  places_listUntil (places .expression start)

theorem places_objectEntry
    (places : ∀ goal start, Places start [] (sub goal) (sitsAs Part.expr)) :
    Places start [] (objectEntry sub) (sitAll entryParts) := by
  have value (key : Name) : Places start (sitsAs Part.name key ++ []) (do
      if ← eatSymbol .colon then
        let value ← sub .expression
        return (key, value)
      else
        let value ← addExpr (.identifier key.text) key.span
        return (key, value)) (sitAll entryParts) := by
    refine .ifEats (eats_symbol _) ?_ ?_
    · exact .bind (places .expression start) fun _ =>
        .pure (by simp +contextual [entryParts])
    · have isName : Places start (sitsAs Part.name key ++ [])
          (addExpr (.identifier key.text) key.span) (sitsAs Part.expr) := by
        intro state
        exact Places.addExprIn
          (fun knows => (knows.sits List.mem_cons_self).2)
          fun _ => List.forall_mem_nil _
      exact .bindUsing isName (List.Subset.refl _) fun _ =>
        .pure (by simp +contextual [entryParts])
  refine .look fun state => ?_
  split
  · next found =>
      exact Places.bindIn (placesIn_takeName (by simp [found]))
        (List.nil_subset _) value
  · exact Places.bind places_expectPropertyName value state

theorem places_primaryNode
    (places : ∀ goal start, Places start [] (sub goal) (sitsAs Part.expr)) :
    Places start [] (primaryNode sub) (sitAll Expr.inside) := by
  have leaf {node : Expr} (none : node.inside = []) :
      Places start [] (do advance; return node) (sitAll Expr.inside) :=
    .bind places_advance fun _ => .pure (by simp [none])
  refine .bind .inspect fun kind => ?_
  split
  case h_9 =>
    refine .bind places_advance fun _ => .bind places_typeExpr fun _ =>
      .ifEats (eats_symbol _) ?_ ?_
    · exact .bind (places_arguments places) fun values => .pureBind
        (.pure (by simp +contextual [Expr.inside]))
    · exact .pureBind (.pure (by simp +contextual [Expr.inside]))
  case h_10 =>
    exact .ite (leaf rfl) .fail
  case h_11 =>
    exact .bind places_advance fun _ => .bind (places .expression start)
      fun _ => .bind places_expectSymbol fun _ =>
        .pure (by simp +contextual [Expr.inside, Expr.children])
  case h_12 =>
    exact .bind places_advance fun _ =>
      .bind (places_listUntil (places .expression start)) fun _ =>
        .pure (by simp +contextual [Expr.inside, Expr.children])
  case h_13 =>
    exact .bind places_advance fun _ =>
      .bind (places_listUntil (places_objectEntry places)) fun entries =>
        .pure (flatMap_sitAll entryParts entries ▸ List.subset_append_left _ _)
  case h_14 => exact .fail
  all_goals exact leaf rfl

theorem places_primary [∀ goal, Steady (sub goal)]
    (places : ∀ goal start, Places start [] (sub goal) (sitsAs Part.expr)) :
    Places start [] (primary sub) (sitsAs Part.expr) :=
  .fresh fun _ => .bindTaking takes_primaryNode (places_primaryNode places)
    fun _ => .wholeExpr (by simp) (by simp +contextual)

theorem places_accesses
    (places : ∀ goal start, Places start [] (sub goal) (sitsAs Part.expr)) :
    ∀ bound start id, Places start [.sits (.expr id)] (accesses sub bound id)
      (sitsAs Part.expr) := by
  intro bound
  induction bound with
  | zero => exact fun _ _ => .pure (List.Subset.refl _)
  | succ bound inductionHypothesis =>
      intro start id
      have further (start : Span) (facts : List Fact) (whole : ExprId) :
          Places start (.sits (.expr whole) :: facts) (accesses sub bound whole)
            (sitsAs Part.expr) :=
        (inductionHypothesis start whole).uses (by simp)
      refine .bind .inspect fun kind => ?_
      split
      case h_1 =>
        refine .anchored id (by simp) fun own => .bind places_advance fun _ =>
          .bind (places_arguments places) fun values =>
            .knownSpan own (by simp) (.wholeExprThen (by simp) ?_ (further own _))
        simp +contextual [Expr.inside]
      case h_2 =>
        refine .bind .inspect fun _ => .ite ?_ (.pure (by simp))
        refine .anchored id (by simp) fun own => .bind places_advance fun _ =>
          .bind (places_separated places_typeExpr) fun types =>
            .bind places_expectClosingAngle fun _ =>
              .bind places_expectSymbol fun _ =>
                .bind (places_arguments places) fun values =>
                  .knownSpan own (by simp)
                    (.wholeExprThen (by simp) ?_ (further own _))
        simp +contextual [Expr.inside]
      case h_3 =>
        exact .bind places_advance fun _ =>
          .bind places_expectPropertyName fun property =>
            .spanOf (by simp) fun span =>
              .bindUsing (.joinedOf (.expr (by simp) (by simp))
                (.name (by simp)) rfl) (List.Subset.refl _) (further start _)
      case h_4 =>
        refine .anchored id (by simp) fun own => .bind places_advance fun _ =>
          .bind (places .expression own) fun index =>
            .bind places_expectSymbol fun _ =>
              .knownSpan own (by simp)
                (.wholeExprThen (by simp) ?_ (further own _))
        simp +contextual [Expr.inside, Expr.children]
      case h_5 => exact .pure (by simp)

theorem places_unary [∀ goal, Steady (sub goal)]
    (takes : ∀ goal, Takes (sub goal))
    (places : ∀ goal start, Places start [] (sub goal) (sitsAs Part.expr)) :
    Places start [] (unary sub) (sitsAs Part.expr) := by
  refine .bind .inspect fun kind => ?_
  split
  · refine .fresh fun own => .bind places_advance fun _ =>
      .bindTaking (takes .unary) (places .unary own) fun operand =>
        .spanOf (by simp) fun span => ?_
    exact .joinedStart (by simp) (.expr (by simp) (by simp)) rfl
  · exact .bind (places_primary places) fun id => .bind .inspect fun _ =>
      (places_accesses places _ start id).uses (by simp)

theorem places_binaryRest {least : Nat}
    (places : ∀ goal start, Places start [] (sub goal) (sitsAs Part.expr)) :
    ∀ bound left, Places start [.sits (.expr left)]
      (binaryRest sub least bound left) (sitsAs Part.expr) := by
  intro bound
  induction bound with
  | zero => exact fun _ => .pure (List.Subset.refl _)
  | succ bound inductionHypothesis =>
      intro left
      refine .bind .inspect fun isCast => .ite ?_ ?_
      · exact .bind places_advance fun _ => .bind places_typeExpr fun type =>
          .spanOf (by simp) fun span =>
            .bindUsing (.joinedOf (.expr (by simp) (by simp))
              (.type (by simp)) rfl) (List.Subset.refl _) fun whole =>
                (inductionHypothesis whole).uses (by simp)
      · refine .bind .inspect fun kind => ?_
        split
        · exact .pure (by simp)
        · refine .ite (.pure (by simp)) ?_
          exact .bind places_advance fun _ =>
            .bind (places (.binary _) start) fun right =>
              .spanOf (by simp) fun _ => .spanOf (by simp) fun _ =>
                .bindUsing (.joinedOf (.expr (by simp) (by simp))
                  (.expr (by simp) (by simp)) rfl) (List.Subset.refl _)
                    fun whole => (inductionHypothesis whole).uses (by simp)

variable [∀ goal, Steady (sub goal)]

theorem places_binary {least : Nat} (takes : ∀ goal, Takes (sub goal))
    (places : ∀ goal start, Places start [] (sub goal) (sitsAs Part.expr)) :
    Places start [] (binary sub least) (sitsAs Part.expr) :=
  .bind (places_unary takes places) fun left => .bind .inspect fun _ =>
    (places_binaryRest places _ left).uses (by simp)

theorem places_conditional (takes : ∀ goal, Takes (sub goal))
    (places : ∀ goal start, Places start [] (sub goal) (sitsAs Part.expr)) :
    Places start [] (conditional sub) (sitsAs Part.expr) := by
  refine .bind (places_binary takes places) fun condition =>
    .ifEats (eats_symbol _) ?_ (.pure (by simp))
  refine .anchored condition (by simp) fun own =>
    .bind (places .assignment own) fun whenTrue =>
      .bind places_expectSymbol fun _ =>
        .bindBehind whenTrue (by simp) (places .assignment) fun whenFalse =>
          .knownSpan own (by simp) (.spanOf (by simp) fun span => ?_)
  exact .joinedAround (.expr (by simp) (by simp)) (by simp)
    (.expr (by simp) (by simp)) (by simp) rfl

theorem places_assignment (takes : ∀ goal, Takes (sub goal))
    (places : ∀ goal start, Places start [] (sub goal) (sitsAs Part.expr)) :
    Places start [] (assignment sub) (sitsAs Part.expr) := by
  refine .bind (places_conditional takes places) fun target =>
    .bind .inspect fun kind => ?_
  split
  · exact .pure (by simp)
  · refine .exprAt (by simp) fun found => .ite ?_ .failAt
    exact .bind places_advance fun _ =>
      .bind (places .assignment start) fun value =>
        .spanOf (by simp) fun span =>
          .joinedOf (.expr (by simp) (by simp)) (.expr (by simp) (by simp)) rfl

theorem places_nested {parser : Parse ExprId}
    (places : Places start [] parser (sitsAs Part.expr)) :
    Places start [] (nested parser) (sitsAs Part.expr) := by
  intro state knows
  by_cases tooDeep : nestingLimit ≤ state.depth
  · have failed : nested parser state =
        failHere (fun _ => .nestingTooDeep nestingLimit) state := if_pos tooDeep
    rw [failed]
    exact Places.fail state knows
  · let inner : State := { state with depth := state.depth + 1 }
    have ran : nested parser state =
        ((parser inner).1, { (parser inner).2 with depth := state.depth }) :=
      if_neg tooDeep
    have deeper := knows.tidy.onto_depth (state.depth + 1)
    obtain ⟨onto, held⟩ := places inner (knows.onto deeper)
    have back := onto.tidy.onto_depth state.depth
    rw [ran]
    exact ⟨deeper.trans (onto.trans back), fun result given fact member =>
      (held result given fact member).onto back⟩

theorem places_goalStep (takes : ∀ goal, Takes (sub goal))
    (places : ∀ goal start, Places start [] (sub goal) (sitsAs Part.expr))
    (goal : ExprGoal) (start : Span) :
    Places start [] (goalStep sub goal) (sitsAs Part.expr) := by
  cases goal with
  | expression => exact places_nested (places_assignment takes places)
  | assignment => exact places_assignment takes places
  | binary least => exact places_binary takes places
  | unary => exact places_unary takes places

end

theorem places_goalAt :
    ∀ bound goal start, Places start [] (goalAt bound goal) (sitsAs Part.expr)
  | 0, _, _ => .fail
  | bound + 1, goal, start =>
      places_goalStep (takes_goalAt bound) (places_goalAt bound) goal start

theorem places_expression : Places start [] expression (sitsAs Part.expr) :=
  .bind .inspect fun _ => places_goalAt _ _ _

theorem places_decoratorArguments :
    Places start [] decoratorArguments fun values =>
      values.flatMap (sitsAs Part.expr) :=
  places_listUntil places_expression

end PluginSurface.Grammar
