import PluginSurface.Proofs.Grammar.PlacedExpressions

/-!
# Spans nest

Statements, blocks and declarations begin with their first token, modifiers and
decorators included, and end with their last one. A text without errors has
ordered tokens, so in the program that it holds the span of every part contains
the spans of what is directly inside it.
-/

namespace PluginSurface.Grammar

open Parse

variable {start : Span} {needs : List Fact}

attribute [local simp] List.subset_def or_imp forall_and

/-! ## Statements -/

section

variable {statement : Parse StmtId}

theorem places_skipStatement : Places start needs skipStatement noFacts :=
  .quiet fun _ tidy => (skipped_statementBoundary _ _).onto tidy rfl rfl

theorem places_recoverStatement {begun : Span} :
    Places start needs (recoverStatement begun) noFacts :=
  .bind places_skipStatement fun _ => .bind .inspect fun _ =>
    .bind .inspect fun _ => .ite places_advance .skip

theorem places_statementsUntilBrace
    (places : ∀ start, Places start [] statement (sitsAs Part.stmt))
    (bound : Nat) :
    Places start [] (statementsUntilBrace statement bound) fun results =>
      results.flatMap (sitsAs Part.stmt) := by
  induction bound with
  | zero => exact .empty
  | succ bound inductionHypothesis =>
      refine .bind .inspect fun _ => .bind .inspect fun _ =>
        .bind .inspect fun _ => .ite .empty (.bind .inspect fun _ => ?_)
      refine .bind (.attempt (places start)) fun first => ?_
      cases first with
      | some first =>
          exact .bind inductionHypothesis fun rest =>
            .pure (by simp +contextual)
      | none =>
          exact .bind places_recoverStatement fun _ =>
            inductionHypothesis.uses (List.nil_subset _)

theorem places_blockOf
    (places : ∀ start, Places start [] statement (sitsAs Part.stmt)) :
    Places start [] (blockOf statement) (sitsAs Part.block) :=
  .fresh fun own => .bindTaking .expectSymbol places_expectSymbol fun _ =>
    .bind .inspect fun _ => .bind (places_statementsUntilBrace places _)
      fun statements => .bind places_expectSymbol fun _ =>
        .whole (by simp) (fun _ _ => rfl) (fun _ _ => trivial)
          (by simp +contextual [Part.inside, Block.inside])

theorem places_optionalType :
    Places start [] optionalType (optionally Part.type) :=
  .ifEats (eats_symbol _)
    (.bind places_typeExpr fun _ => .pure (by simp +contextual))
    (.pure (by simp))

theorem places_optionalInitializer :
    Places start [] optionalInitializer (optionally Part.expr) :=
  .ifEats (eats_symbol _)
    (.bind places_expression fun _ => .pure (by simp +contextual))
    (.pure (by simp))

theorem places_optionalSemicolon :
    Places start needs optionalSemicolon noFacts :=
  .discard (.eats (eats_symbol _))

theorem places_bindingNode {kind : BindingKind} :
    Places start [] (bindingNode kind) (sitAll Stmt.inside) :=
  .bind places_expectIdentifier fun _ => .bind places_optionalType fun _ =>
    .bind places_optionalInitializer fun value =>
      .bind places_optionalSemicolon fun _ =>
        .pure (by simp +contextual [Stmt.inside])

theorem places_branchNode
    (places : ∀ start, Places start [] statement (sitsAs Part.stmt)) :
    Places start [] (branchNode statement) (sitAll Stmt.inside) := by
  refine .bind places_expectSymbol fun _ => .bind places_expression fun _ =>
    .bind places_expectSymbol fun _ => .bind (places start) fun whenTrue =>
      .ifEats (eats_keyword _) ?_ (.pure (by simp +contextual [Stmt.inside]))
  exact .bind (places start) fun whenFalse =>
    .pure (by simp +contextual [Stmt.inside])

theorem places_loopNode
    (places : ∀ start, Places start [] statement (sitsAs Part.stmt)) :
    Places start [] (loopNode statement) (sitAll Stmt.inside) :=
  .bind places_expectSymbol fun _ => .bind places_expression fun _ =>
    .bind places_expectSymbol fun _ => .bind (places start) fun body =>
      .pure (by simp +contextual [Stmt.inside])

theorem places_returnNode : Places start [] returnNode (sitAll Stmt.inside) := by
  refine .bind .inspect fun _ => .bind .inspect fun _ =>
    .bind .inspect fun _ => .ite ?_ ?_
  · exact .bind places_optionalSemicolon fun _ =>
      .pure (by simp [Stmt.inside])
  · exact .bind places_expression fun value =>
      .bind places_optionalSemicolon fun _ =>
        .pure (by simp +contextual [Stmt.inside])

theorem places_statementNode
    (places : ∀ start, Places start [] statement (sitsAs Part.stmt)) :
    Places start [] (statementNode statement) (sitAll Stmt.inside) := by
  refine .bind .inspect fun kind => ?_
  split
  · exact .bind (places_blockOf places) fun inner =>
      .pure (by simp [Stmt.inside])
  · exact .bind places_advance fun _ => .pure (by simp [Stmt.inside])
  · exact .bind places_advance fun _ => places_bindingNode
  · exact .bind places_advance fun _ => places_bindingNode
  · exact .bind places_advance fun _ => places_bindingNode
  · exact .bind places_advance fun _ => places_branchNode places
  · exact .bind places_advance fun _ => places_loopNode places
  · exact .bind places_advance fun _ => places_returnNode
  · exact .bind places_advance fun _ => .bind places_expression fun value =>
      .bind places_optionalSemicolon fun _ =>
        .pure (by simp +contextual [Stmt.inside])
  · exact .bind places_expression fun value =>
      .bind places_optionalSemicolon fun _ =>
        .pure (by simp +contextual [Stmt.inside])

theorem places_statementAt :
    ∀ bound start, Places start [] (statementAt bound) (sitsAs Part.stmt)
  | 0, _ => .fail
  | bound + 1, _ =>
      .fresh fun _ => .bindTaking takes_statementNode
        (places_statementNode (places_statementAt bound)) fun node =>
          .wholeStmt (by simp) (by simp +contextual)

theorem places_block : Places start [] block (sitsAs Part.block) :=
  .bind .inspect fun _ => places_blockOf (places_statementAt _)

end

/-! ## Declarations -/

theorem places_decoratorFrom :
    Places start [.placed start] (decoratorFrom start)
      (sitsAs Part.decorator) := by
  refine .bind places_expectPropertyName fun _ =>
    .ifEats (eats_symbol _) ?_ ?_
  · refine .bind places_decoratorArguments fun values => ?_
    exact .whole (by simp) (fun _ _ => rfl) (fun _ _ => trivial)
      (by simp +contextual [Part.inside, Decorator.inside])
  · exact .pureBind (.whole (by simp) (fun _ _ => rfl) (fun _ _ => trivial)
      (by simp +contextual [Part.inside, Decorator.inside]))

theorem places_decoratorsAt :
    ∀ bound start, Places start [] (decoratorsAt bound) fun results =>
      results.flatMap (sitsAs Part.decorator)
  | 0, _ => .fail
  | bound + 1, _ => by
      refine .fresh fun own => .ifEats (eats_symbol _) ?_ .empty
      exact .bindUsing places_decoratorFrom (by simp) fun first =>
        .bind (places_decoratorsAt bound own) fun rest =>
          .pure (by simp +contextual)

theorem places_decorators :
    Places start [] decorators fun results =>
      results.flatMap (sitsAs Part.decorator) :=
  .bind .inspect fun _ => places_decoratorsAt _ _

theorem places_externalName {decorators : List Decorator} :
    Places start needs (externalName decorators) noFacts := by
  unfold externalName
  split
  · exact .skip
  · refine .bind (@Places.inspect _ _ _ State.arena) fun arena => ?_
    split
    · exact .bind .report fun _ => .skip
    · exact .skip
    · exact .skip
    · exact .bind .report fun _ => .skip

theorem places_parameterModifier :
    Places start needs parameterModifier noFacts := by
  refine .bind .inspect fun next => .bind .inspect fun kind => ?_
  split <;> exact .skip

theorem places_skipParameterModifiers (bound : Nat) :
    Places start [] (skipParameterModifiers bound) noFacts := by
  induction bound with
  | zero => exact .skip
  | succ bound inductionHypothesis =>
      exact .bind places_parameterModifier fun _ =>
        .ite (.bind places_advance fun _ => inductionHypothesis) .skip

theorem places_parameter : Places start [] parameter (sitsAs Part.param) := by
  refine .fresh fun own => .bind .inspect fun _ =>
    .bind (places_skipParameterModifiers _) fun _ =>
      .bindTaking takes_expectIdentifier places_expectIdentifier fun name =>
        .bind .inspect fun _ =>
          .ite .fail (.ifEats (eats_symbol _) ?_ .failAt)
  exact .bind places_typeExpr fun type =>
    .bind places_optionalInitializer fun initializer =>
      .whole (by simp) (fun _ _ => rfl) (fun _ _ => trivial)
        (by simp +contextual [Part.inside, Param.inside])

theorem places_parameters :
    Places start [] parameters fun results =>
      results.flatMap (sitsAs Part.param) :=
  .bind places_expectSymbol fun _ => places_listUntil places_parameter

theorem places_typeParameter : Places start [] typeParameter noFacts :=
  .bind (.discard places_expectIdentifier) fun _ =>
    .ifEats (eats_identifier _) (.discard places_typeExpr) .skip

theorem places_skipTypeParameters :
    Places start [] skipTypeParameters noFacts :=
  .ifEats (eats_symbol _)
    (.bind (.discard (places_separated places_typeParameter)) fun _ =>
      places_expectClosingAngle)
    .skip

theorem places_optionalBody :
    Places start [] optionalBody (optionally Part.block) := by
  refine .bind .inspect fun _ => .ite ?_ ?_
  · exact .bind places_block fun body => .pure (by simp)
  · exact .bind places_optionalSemicolon fun _ => .pure (by simp)

theorem places_functionDecl {decorators : List Decorator}
    {isExported isDeclared : Bool} :
    Places start (decorators.flatMap (sitsAs Part.decorator))
      (functionDecl decorators isExported isDeclared start)
      (sitsAs (Part.item ∘ Item.function)) := by
  refine .bindTaking .expectKeyword places_expectKeyword fun _ =>
    .bind places_expectIdentifier fun name =>
      .bind places_skipTypeParameters fun _ =>
        .bind places_parameters fun params =>
          .bind places_optionalType fun returnType =>
            .bind places_optionalBody fun body => ?_
  have rest : Places start
      (.placed start :: .sits (.name name) ::
        (decorators.flatMap (sitsAs Part.decorator) ++
          (params.flatMap (sitsAs Part.param) ++
            (optionally Part.type returnType ++
              optionally Part.block body)))) (do
        let external ← externalName decorators
        return ⟨name, decorators, external, isExported, isDeclared, params,
          returnType, body, ← spanFrom start⟩)
      (sitsAs (Part.item ∘ Item.function)) :=
    .bind places_externalName fun _ =>
      .whole (by simp) (fun _ _ => rfl) (fun _ _ => trivial)
        (by simp +contextual [Part.inside, Item.inside, FunctionDecl.inside])
  exact .ite
    (.bind .report fun _ => rest.uses (by simp +contextual))
    (rest.uses (by simp +contextual))

theorem places_memberModifiers (bound : Nat) :
    Places start [] (memberModifiers bound) noFacts := by
  induction bound with
  | zero => exact .skip
  | succ bound inductionHypothesis =>
      refine .bind .inspect fun _ => .bind .inspect fun _ => .ite ?_ .skip
      exact .bind places_advance fun _ =>
        .bind inductionHypothesis fun _ => .skip

theorem places_methodFrom {decorators : List Decorator} {name : Name} :
    Places start
      (.placed start :: .sits (.name name) ::
        decorators.flatMap (sitsAs Part.decorator))
      (methodFrom start decorators name) (sitsAs (Part.item ∘ Item.function)) :=
  .bind places_skipTypeParameters fun _ =>
    .bind places_parameters fun params =>
      .bind places_optionalType fun returnType =>
        .bind places_optionalBody fun body =>
          .whole (by simp) (fun _ _ => rfl) (fun _ _ => trivial)
            (by simp +contextual
              [Part.inside, Item.inside, FunctionDecl.inside])

theorem places_fieldFrom {name : Name} :
    Places start [.placed start, .sits (.name name)] (fieldFrom start name)
      (sitsAs Part.field) := by
  have rest : Places start [.placed start, .sits (.name name)] (do
      if ← eatSymbol .colon then
        let type ← typeExpr
        let initializer ← optionalInitializer
        optionalSemicolon
        return ⟨name, type, initializer, ← spanFrom start⟩
      else failAt (.untypedField name.text) name.span) (sitsAs Part.field) := by
    refine .ifEats (eats_symbol _) ?_ .failAt
    exact .bind places_typeExpr fun type =>
      .bind places_optionalInitializer fun initializer =>
        .bind places_optionalSemicolon fun _ =>
          .whole (by simp) (fun _ _ => rfl) (fun _ _ => trivial)
            (by simp +contextual [Part.inside, FieldDecl.inside])
  refine .bind (.eats (eats_symbol _)) fun _ => .ite rest ?_
  exact .bind (.discard (.eats (eats_symbol _))) fun _ => rest

/-- The part that a member adds to its class. -/
def Member.parts : Member → List Part
  | .field decl => [.field decl]
  | .method decl => [.item (.function decl)]
  | .static => []

theorem places_classMember :
    Places start [] classMember (sitAll Member.parts) := by
  refine .fresh fun own => .bind places_decorators fun decorators =>
    .bind .inspect fun _ => .bind (places_memberModifiers _) fun isStatic =>
      .bindTaking takes_expectPropertyName places_expectPropertyName
        fun name => .bind .inspect fun _ => .bind .inspect fun _ =>
          .ite ?_ ?_
  · exact .bindUsing places_methodFrom (by simp +contextual) fun decl =>
      .pure (by simp [Member.parts])
  · refine .bindUsing places_fieldFrom (by simp) fun decl => ?_
    exact .pure (by split <;> simp [Member.parts])

theorem places_skipMember : Places start needs skipMember noFacts :=
  .quiet fun _ tidy => (skipped_memberBoundary 0 _ _).onto tidy rfl rfl

theorem places_membersUntilBrace (bound : Nat) :
    Places start [] (membersUntilBrace bound) fun results =>
      results.flatMap (sitAll Member.parts) := by
  induction bound with
  | zero => exact .empty
  | succ bound inductionHypothesis =>
      refine .bind .inspect fun _ => .bind .inspect fun _ => .ite .empty ?_
      refine .ifEats (eats_symbol _)
        (inductionHypothesis.uses (List.nil_subset _)) ?_
      refine .bind .inspect fun _ => .ite .empty ?_
      refine .bind (.attempt places_classMember) fun first => ?_
      cases first with
      | some first =>
          exact .bind inductionHypothesis fun rest =>
            .pure (by simp +contextual)
      | none =>
          exact .bind places_skipMember fun _ =>
            inductionHypothesis.uses (List.nil_subset _)

theorem places_optionalBase :
    Places start [] optionalBase (optionally Part.type) :=
  .ifEats (eats_identifier _)
    (.bind places_typeExpr fun _ => .pure (by simp)) (.pure (by simp))

theorem sits_of_field {members : List Member} {decl : FieldDecl}
    (isField : decl ∈ members.filterMap Member.field?) :
    .sits (.field decl) ∈ members.flatMap (sitAll Member.parts) := by
  obtain ⟨found, member, same⟩ := List.mem_filterMap.mp isField
  cases found <;> cases same
  exact List.mem_flatMap.mpr ⟨_, member, List.mem_singleton_self _⟩

theorem sits_of_method {members : List Member} {decl : FunctionDecl}
    (isMethod : decl ∈ members.filterMap Member.method?) :
    .sits (.item (.function decl)) ∈
      members.flatMap (sitAll Member.parts) := by
  obtain ⟨found, member, same⟩ := List.mem_filterMap.mp isMethod
  cases found <;> cases same
  exact List.mem_flatMap.mpr ⟨_, member, List.mem_singleton_self _⟩

theorem places_classDecl {decorators : List Decorator} {isExported : Bool} :
    Places start (decorators.flatMap (sitsAs Part.decorator))
      (classDecl decorators isExported start)
      (sitsAs (Part.item ∘ Item.class)) := by
  have rest (name : Name) (base : Option TypeExpr) : Places start
      (.placed start :: .sits (.name name) ::
        (decorators.flatMap (sitsAs Part.decorator) ++
          optionally Part.type base)) (do
        expectSymbol .openBrace
        let members ← membersUntilBrace (← stepBound)
        expectSymbol .closeBrace
        return ⟨name, decorators, isExported, base,
          members.filterMap Member.field?, members.filterMap Member.method?,
          ← spanFrom start⟩) (sitsAs (Part.item ∘ Item.class)) := by
    refine .bind places_expectSymbol fun _ => .bind .inspect fun _ =>
      .bind (places_membersUntilBrace _) fun members =>
        .bind places_expectSymbol fun _ =>
          .whole (by simp) (fun _ _ => rfl) (fun _ _ => trivial) ?_
    have fields := fun decl => @sits_of_field members decl
    have methods := fun decl => @sits_of_method members decl
    generalize members.flatMap (sitAll Member.parts) = facts
      at fields methods ⊢
    generalize members.filterMap Member.field? = found at fields ⊢
    generalize members.filterMap Member.method? = others at methods ⊢
    simp +contextual
      [Part.inside, Item.inside, ClassDecl.inside, fields, methods]
  refine .bindTaking .expectKeyword places_expectKeyword fun _ =>
    .bind places_expectIdentifier fun name =>
      .bind places_skipTypeParameters fun _ =>
        .bind places_optionalBase fun base =>
          .ifEats (eats_identifier _) ?_
            ((rest name base).uses (by simp +contextual))
  exact .bind (.discard (places_separated places_typeExpr)) fun _ =>
    (rest name base).uses (by simp +contextual)

theorem places_variableDecl {kind : BindingKind} {decorators : List Decorator}
    {isExported : Bool} :
    Places start (decorators.flatMap (sitsAs Part.decorator))
      (variableDecl kind decorators isExported start)
      (sitsAs (Part.item ∘ Item.variable)) :=
  .bind places_advance fun _ =>
    .bindTaking takes_expectIdentifier places_expectIdentifier fun name =>
      .bind places_optionalType fun type =>
        .bind places_optionalInitializer fun value =>
          .bind places_optionalSemicolon fun _ =>
            .whole (by simp) (fun _ _ => rfl) (fun _ _ => trivial)
              (by simp +contextual
                [Part.inside, Item.inside, VariableDecl.inside])

theorem places_optionalRename :
    Places start [] optionalRename (optionally Part.name) :=
  .ifEats (eats_keyword _)
    (.bind places_expectIdentifier fun _ => .pure (by simp)) (.pure (by simp))

theorem places_exportMember :
    Places start [] exportMember (sitAll ExportMember.parts) :=
  .bind places_expectIdentifier fun _ => .bind places_optionalRename fun _ =>
    .pure (by simp +contextual [ExportMember.parts])

theorem places_exportDecl :
    Places start [] (exportDecl start)
      (sitsAs (Part.item ∘ Item.exportList)) := by
  have rest (members : List ExportMember) (source : Option String) :
      Places start
        (.placed start :: members.flatMap (sitAll ExportMember.parts)) (do
        optionalSemicolon
        return ⟨members, source, ← spanFrom start⟩)
        (sitsAs (Part.item ∘ Item.exportList)) := by
    refine .bind places_optionalSemicolon fun _ =>
      .whole (by simp) (fun _ _ => rfl) (fun _ _ => trivial) fun _ _ => ?_
    rw [flatMap_sitAll]
    exact List.subset_cons_self _ _
  refine .bindTaking .expectSymbol places_expectSymbol fun _ =>
    .bind (places_listUntil places_exportMember) fun members =>
      .ifEats (eats_keyword _) ?_ ?_
  · refine .bind places_expectString fun _ =>
      .pureBind ((rest members _).uses ?_)
    generalize members.flatMap (sitAll ExportMember.parts) = facts
    simp +contextual
  · refine .pureBind ((rest members _).uses ?_)
    generalize members.flatMap (sitAll ExportMember.parts) = facts
    simp +contextual

theorem places_importMember :
    Places start [] importMember (sitAll ImportMember.parts) :=
  .bind places_expectIdentifier fun first =>
    .bind places_optionalRename fun rename =>
      .pure (by cases rename <;> simp +contextual [ImportMember.parts])

/-- The names that an import gives. -/
def importParts (names : Option Name × List ImportMember) : List Part :=
  names.1.toList.map Part.name ++ names.2.flatMap ImportMember.parts

theorem places_importNames :
    Places start [] importNames (sitAll importParts) := by
  refine .bind .inspect fun kind => ?_
  split
  · exact .pure (by simp [importParts])
  · exact .bind places_advance fun _ => .bind places_expectKeyword fun _ =>
      .bind places_expectIdentifier fun _ =>
        .pure (by simp [importParts])
  · refine .bind places_expectSymbol fun _ =>
      .bind (places_listUntil places_importMember) fun members => .pure ?_
    rw [flatMap_sitAll]
    exact List.subset_append_left _ _

theorem places_importDecl :
    Places start [] (importDecl start)
      (sitsAs (Part.item ∘ Item.importList)) := by
  refine .bindTaking .expectKeyword places_expectKeyword fun _ =>
    .bind places_importNames fun names => .bind .inspect fun _ => ?_
  have rest : Places start (.placed start :: sitAll importParts names) (do
      let source ← expectString
      optionalSemicolon
      return ⟨names.2, names.1, source, ← spanFrom start⟩)
      (sitsAs (Part.item ∘ Item.importList)) :=
    .bind places_expectString fun _ => .bind places_optionalSemicolon fun _ =>
      .whole (by simp) (fun _ _ => rfl) (fun _ _ => trivial) fun _ _ =>
        List.subset_cons_self _ _
  generalize sitAll importParts names = facts at rest ⊢
  refine .ite ?_ (rest.uses (by simp +contextual))
  exact .bind places_expectKeyword fun _ => rest.uses (by simp +contextual)

/-! ## Items -/

theorem places_declarationItem {decorators : List Decorator}
    {isExported isDeclared : Bool} :
    Places start (decorators.flatMap (sitsAs Part.decorator))
      (declarationItem decorators isExported isDeclared start)
      (sitsAs Part.item) := by
  refine .bind .inspect fun kind => ?_
  split
  · exact .bindUsing places_functionDecl (List.Subset.refl _) fun decl =>
      .pure (by simp)
  · exact .bindUsing places_classDecl (List.Subset.refl _) fun decl =>
      .pure (by simp)
  · exact .bindUsing places_variableDecl (List.Subset.refl _) fun decl =>
      .pure (by simp)
  · exact .bindUsing places_variableDecl (List.Subset.refl _) fun decl =>
      .pure (by simp)
  · exact .bindUsing places_variableDecl (List.Subset.refl _) fun decl =>
      .pure (by simp)
  · exact .ite .fail (.bind places_importDecl fun decl => .pure (by simp))
  · exact .ite .fail .fail
  · exact .ite .fail .fail
  · exact .fail

theorem places_item : Places start [] item (sitsAs Part.item) := by
  refine .fresh fun own => .bind places_decorators fun decorators =>
    .bind (.eats (eats_keyword _)) fun isExported => .bind .inspect fun _ =>
      .ite ?_ ?_
  · exact .bind places_exportDecl fun decl => .pure (by simp)
  · exact .bind (.eats (eats_keyword _)) fun _ =>
      places_declarationItem.uses (by simp)

theorem places_skipItem : Places start needs skipItem noFacts :=
  .quiet fun _ tidy => (skipped_itemBoundary 0 _ _).onto tidy rfl rfl

theorem places_itemsToEnd (bound : Nat) :
    Places start [] (itemsToEnd bound) fun results =>
      results.flatMap (sitsAs Part.item) := by
  induction bound with
  | zero => exact .empty
  | succ bound inductionHypothesis =>
      refine .bind .inspect fun _ => .bind .inspect fun _ => .ite .empty ?_
      refine .ifEats (eats_symbol _)
        (inductionHypothesis.uses (List.nil_subset _)) ?_
      refine .bind (.attempt places_item) fun first => ?_
      cases first with
      | some first =>
          exact .bind inductionHypothesis fun rest =>
            .pure (by simp +contextual)
      | none =>
          exact .bind places_skipItem fun _ =>
            inductionHypothesis.uses (List.nil_subset _)

/-- From a tidy state on, the items that are read nest and stand in the span of
them all. -/
theorem items_nest {state final : State} {found : List Item} {span : Span}
    (tidy : state.Tidy) (ran : items state = (some (found, span), final)) :
    final.arena.Nested ∧ ∀ item ∈ found,
      (Part.item item).Nests final.arena ∧ span.Contains item.span := by
  let start := state.current.span
  obtain ⟨onto, held⟩ :=
    places_itemsToEnd (state.rest.length + 1) state tidy.begins
  obtain ⟨results, later, read, ended⟩ : ∃ results later,
      itemsToEnd (state.rest.length + 1) state = (some results, later) ∧
      (some (results, start.merge later.previous), later) =
        (some (found, span), final) := bind_eq_some ran
  cases ended
  rw [read] at onto held
  refine ⟨onto.tidy.nested, fun item member => ?_⟩
  have known : Fact.sits (.item item) ∈ found.flatMap (sitsAs Part.item) :=
    List.mem_flatMap.mpr ⟨item, member, List.mem_singleton_self _⟩
  obtain ⟨nests, placed⟩ := held found rfl _ known
  exact ⟨nests, (Position.earlier_le_left _ _).trans placed.behind,
    placed.passed.2.trans (Position.right_le_later _ _)⟩

/-- In the program that the tokens of a text without errors make up, spans
nest. -/
theorem spansNest_of_parse {source : SourceText} {kind : SourceKind}
    {program : Program} (clean : source.scan.diagnostics.hasErrors = false)
    (parsed : parse source kind source.scan.tokens = .ok program) :
    program.SpansNest := by
  unfold parse at parsed
  rcases ran : items (initialState source source.scan.tokens) with
    ⟨result, state⟩
  rw [ran] at parsed
  dsimp only at parsed
  split at parsed
  · cases parsed
    obtain ⟨nested, found⟩ := items_nest (tidy_initialState clean) ran
    have nests := fun item member => (found item member).1
    exact ⟨fun item member => (found item member).2,
      fun part comprises =>
        (Program.nests_of_comprises nests nested comprises).contains⟩
  · cases parsed

end PluginSurface.Grammar

namespace PluginSurface

/-- In the program that a text holds, spans nest. -/
theorem SourceText.spans_nest {source : SourceText} {kind : SourceKind}
    {program : Program} (parsed : source.parse kind = .ok program) :
    program.SpansNest := by
  unfold SourceText.parse at parsed
  dsimp only at parsed
  split at parsed
  · cases parsed
  · next clean =>
      exact Grammar.spansNest_of_parse (Bool.eq_false_iff.mpr clean) parsed

/-- A text where decorators, modifiers and closing angles stand at the edges of
what is read. -/
def Sample.shelf : SourceText :=
  ⟨"assembly/shelf.ts",
    "@keep(1) class Shelf \x7b\n" ++
    "  private rows: Map<i32, Array<i32>> = a();\n" ++
    "  get top(): i32 \x7b return this.rows[0] as i32; \x7d\n" ++
    "\x7d"⟩

theorem SourceText.spans_nest_of_shelf :
    ∃ program, Sample.shelf.parse .user = .ok program ∧
      program.items.map Item.span = [⟨⟨1, 1⟩, ⟨4, 1⟩⟩] ∧
      (program.arena.exprs.size, program.arena.stmts.size) = (8, 1) ∧
      program.SpansNest := by
  have measured :
      ((Sample.shelf.parse .user).toOption.map fun program =>
        (program.items.map Item.span, program.arena.exprs.size,
          program.arena.stmts.size)) =
        some ([⟨⟨1, 1⟩, ⟨4, 1⟩⟩], 8, 1) := by
    decide +kernel
  cases parsed : Sample.shelf.parse .user with
  | error diagnostics =>
      rw [parsed] at measured
      cases measured
  | ok program =>
      rw [parsed] at measured
      have same := Option.some.inj measured
      exact ⟨program, rfl, congrArg Prod.fst same, congrArg Prod.snd same,
        SourceText.spans_nest parsed⟩

end PluginSurface
