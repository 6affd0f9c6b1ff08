import PluginSurface.Proofs.Grammar.ParsedStatements

/-!
# Declarations as they are parsed

Parsed programs are grammatical.
-/

namespace PluginSurface

open Grammar

/-! ## Depictions -/

section

variable {smaller larger : Arena}

theorem Arena.Extends.exprTrees_eq (extended : smaller.Extends larger)
    (closed : smaller.Closed) {ids : List ExprId}
    (stored : ∀ id ∈ ids, smaller.Has (.expr id)) :
    ids.map larger.exprTree = ids.map smaller.exprTree :=
  List.map_congr_left fun id member =>
    extended.exprTree_eq closed (stored id member)

theorem Arena.Extends.optionalTree_eq (extended : smaller.Extends larger)
    (closed : smaller.Closed) {value : Option ExprId}
    (stored : ∀ point ∈ optionalPoints value, smaller.Has point) :
    value.map larger.exprTree = value.map smaller.exprTree := by
  cases value with
  | none => rfl
  | some id =>
      rw [Option.map_some, Option.map_some, extended.exprTree_eq closed
        (stored _ (by simp [optionalPoints]))]

theorem Arena.Extends.decorator_eq (extended : smaller.Extends larger)
    (closed : smaller.Closed) {decorator : Decorator}
    (stored : ∀ point ∈ decorator.points, smaller.Has point) :
    decorator.tree larger = decorator.tree smaller := by
  rw [Decorator.tree, Decorator.tree, extended.exprTrees_eq closed
    fun id member => stored _ (List.mem_map_of_mem member)]

theorem Arena.Extends.param_eq (extended : smaller.Extends larger)
    (closed : smaller.Closed) {param : Param}
    (stored : ∀ point ∈ param.points, smaller.Has point) :
    param.tree larger = param.tree smaller := by
  rw [Param.tree, Param.tree, extended.optionalTree_eq closed stored]

theorem Arena.Extends.field_eq (extended : smaller.Extends larger)
    (closed : smaller.Closed) {field : FieldDecl}
    (stored : ∀ point ∈ field.points, smaller.Has point) :
    field.tree larger = field.tree smaller := by
  rw [FieldDecl.tree, FieldDecl.tree, extended.optionalTree_eq closed stored]

/-- Trees of a list are the same if each of its entries has the same tree. -/
theorem map_eq_of_points {Node Tree : Type} {nodes : List Node}
    {points : Node → List Point} {left right : Node → Tree}
    (same : ∀ node, (∀ point ∈ points node, smaller.Has point) →
      left node = right node)
    (stored : ∀ point ∈ nodes.flatMap points, smaller.Has point) :
    nodes.map left = nodes.map right :=
  List.map_congr_left fun node member => same node fun point inNode =>
    stored point (List.mem_flatMap.mpr ⟨node, member, inNode⟩)

theorem Arena.Extends.function_eq (extended : smaller.Extends larger)
    (closed : smaller.Closed) {function : FunctionDecl}
    (stored : ∀ point ∈ function.points, smaller.Has point) :
    function.tree larger = function.tree smaller := by
  simp only [FunctionDecl.points, FunctionDecl.entries,
    List.mem_append] at stored
  have decorators := map_eq_of_points
    (fun _ => extended.decorator_eq closed)
    fun point member => stored point (.inl member)
  have params := map_eq_of_points (fun _ => extended.param_eq closed)
    fun point member => stored point (.inr (.inl member))
  have body : (function.body.map fun body =>
      body.statements.map larger.stmtTree) =
      function.body.map fun body => body.statements.map smaller.stmtTree := by
    cases found : function.body with
    | none => rfl
    | some block =>
        refine congrArg some (List.map_congr_left fun id member => ?_)
        refine extended.stmtTree_eq closed (stored _ (.inr (.inr ?_)))
        simpa [found, Block.points] using member
  rw [FunctionDecl.tree, FunctionDecl.tree, decorators, params, body]

theorem Arena.Extends.item_eq (extended : smaller.Extends larger)
    (closed : smaller.Closed) {item : Item}
    (stored : ∀ point ∈ item.points, smaller.Has point) :
    item.tree larger = item.tree smaller := by
  cases item with
  | function decl =>
      exact congrArg ItemTree.function (extended.function_eq closed stored)
  | «class» decl =>
      simp only [Item.points, ClassDecl.points, List.mem_append] at stored
      have decorators := map_eq_of_points
        (fun _ => extended.decorator_eq closed)
        fun point member => stored point (.inl member)
      have fields := map_eq_of_points (fun _ => extended.field_eq closed)
        fun point member => stored point (.inr (.inl member))
      have methods := map_eq_of_points (fun _ => extended.function_eq closed)
        fun point member => stored point (.inr (.inr member))
      simp only [Item.tree, decorators, fields, methods]
  | exportList decl => rfl
  | importList decl => rfl
  | «variable» decl =>
      simp only [Item.points, VariableDecl.points, List.mem_append] at stored
      have decorators := map_eq_of_points
        (fun _ => extended.decorator_eq closed)
        fun point member => stored point (.inl member)
      have value := extended.optionalTree_eq closed
        fun point member => stored point (.inr member)
      simp only [Item.tree, decorators, value]

end

instance : Depicted Decorator DecoratorTree where
  points := Decorator.points
  tree := Decorator.tree
  tree_eq extended closed _ stored := extended.decorator_eq closed stored

instance : Depicted Param SlotTree where
  points := Param.points
  tree := Param.tree
  tree_eq extended closed _ stored := extended.param_eq closed stored

instance : Depicted FieldDecl SlotTree where
  points := FieldDecl.points
  tree := FieldDecl.tree
  tree_eq extended closed _ stored := extended.field_eq closed stored

instance : Depicted FunctionDecl FunctionTree where
  points := FunctionDecl.points
  tree := FunctionDecl.tree
  tree_eq extended closed _ stored := extended.function_eq closed stored

instance : Depicted Item ItemTree where
  points := Item.points
  tree := Item.tree
  tree_eq extended closed _ stored := extended.item_eq closed stored

instance : Depicted ExportMember (String × Option String) where
  points _ := []
  tree _ member := (member.localName.text, member.exportedName.map Name.text)
  tree_eq _ _ _ _ := rfl

instance : Depicted ImportMember (String × String) where
  points _ := []
  tree _ member := (member.importedName.text, member.localName.text)
  tree_eq _ _ _ _ := rfl

/-- Entries that are each depicted are depicted as a list. -/
theorem Arena.exists_depicts_all {Node Tree : Type} [Depicted Node Tree]
    {arena : Arena} {holds : Tree → Prop} {nodes : List Node}
    (each : ∀ node ∈ nodes, ∃ tree, arena.Depicts node tree ∧ holds tree) :
    ∃ trees, arena.Depicts nodes trees ∧ ∀ tree ∈ trees, holds tree := by
  induction nodes with
  | nil => exact ⟨[], .nil, by simp⟩
  | cons node nodes inductionHypothesis =>
      obtain ⟨tree, depicts, held⟩ := each node List.mem_cons_self
      obtain ⟨trees, others, all⟩ := inductionHypothesis
        fun other member => each other (List.mem_cons_of_mem _ member)
      exact ⟨tree :: trees, depicts.cons others,
        List.forall_mem_cons.mpr ⟨held, all⟩⟩

namespace Grammar

set_option synthInstance.maxSize 1024

variable {state : State}

/-! ## Decorators -/

theorem yields_decoratorFrom {start : Span} (ready : state.Ready)
    (flat : state.depth = 0) :
    Yields state (decoratorFrom start) fun decorator later =>
      ∃ tree, later.arena.Depicts decorator tree ∧ tree.Grammatical := by
  unfold decoratorFrom
  dsimp only
  refine .bind (yields_expectPropertyName ready) ?_
  rintro name later leads ⟨word, _⟩
  refine .eatSymbol leads.ready (fun second further _ => ?_) fun _ => ?_
  · have both := leads.trans further
    refine .bind (yields_decoratorArguments further.ready
      (both.depth.trans flat)) ?_
    rintro ids last onward ⟨trees, depicts, enclosed⟩
    refine .spanFrom fun span => .pure onward.ready
      ⟨⟨name.text, trees⟩, ⟨fun point member => ?_, ?_⟩, word, enclosed⟩
    · refine depicts.stored point ?_
      simpa [Depicted.points, Decorator.points, eq_comm] using member
    · exact congrArg (DecoratorTree.mk name.text) depicts.shown
  · refine .continued rfl leads.ready.leads (.spanFrom fun span =>
      .pure leads.ready ⟨⟨name.text, []⟩, ⟨?_, rfl⟩, word,
        ExprTree.allEnclosed_nil (Nat.zero_le _)⟩)
    simp [Depicted.points, Decorator.points]

theorem yields_decoratorsAt :
    ∀ (bound : Nat) {state : State}, state.Ready → state.depth = 0 →
      Yields state (decoratorsAt bound) fun decorators later =>
        ∃ trees, later.arena.Depicts decorators trees ∧
          ∀ tree ∈ trees, tree.Grammatical
  | 0, _, _, _ => .failHere
  | bound + 1, state, ready, flat => by
      refine .inspect (.eatSymbol ready (fun later leads _ => ?_) fun _ => ?_)
      · refine .bind (yields_decoratorFrom leads.ready
          (leads.depth.trans flat)) ?_
        rintro first second further ⟨tree, depicts, grammatical⟩
        have both := leads.trans further
        refine .bind (yields_decoratorsAt bound further.ready
          (both.depth.trans flat)) ?_
        rintro others last onward ⟨trees, otherDepicts, all⟩
        have stored := depicts.extends onward.extended further.ready.closed
        exact .pure onward.ready ⟨tree :: trees, stored.cons otherDepicts,
          List.forall_mem_cons.mpr ⟨grammatical, all⟩⟩
      · exact .pure ready ⟨[], .nil, by simp⟩

theorem yields_decorators (ready : state.Ready) (flat : state.depth = 0) :
    Yields state decorators fun decorators later =>
      ∃ trees, later.arena.Depicts decorators trees ∧
        ∀ tree ∈ trees, tree.Grammatical :=
  .inspect (yields_decoratorsAt _ ready flat)

theorem stringContents_eq {arena : Arena} (closed : arena.Closed) :
    ∀ {ids : List ExprId} {trees : List ExprTree},
      arena.Depicts ids trees →
        ∀ {contents : List String},
          stringContents arena ids = .ok contents →
            stringContents? trees = some contents
  | [], _, depicts, _, known => by
      cases depicts.shown
      cases known
      rfl
  | id :: ids, _, depicts, contents, known => by
      cases depicts.shown
      have others : arena.Depicts ids (ids.map arena.exprTree) :=
        ⟨fun point member => depicts.stored point
          (List.mem_append_right _ member), rfl⟩
      unfold stringContents at known
      split at known
      · next content span found =>
          have shown : arena.exprTree id = .string content := by
            rw [closed.exprTree_eq, found]
            rfl
          cases rest : stringContents arena ids with
          | error span =>
              rw [rest] at known
              cases known
          | ok tail =>
              rw [rest] at known
              cases known
              change stringContents? (arena.exprTree id ::
                ids.map arena.exprTree) = _
              rw [shown, stringContents?,
                stringContents_eq closed others rest]
              rfl
      · cases known

theorem find?_depicted {arena : Arena} {decorators : List Decorator}
    {trees : List DecoratorTree} (depicts : arena.Depicts decorators trees)
    (name : String) :
    (trees.find? fun tree => tree.name == name) =
      (decorators.find? fun decorator => decorator.name.text == name).map
        (Decorator.tree arena) := by
  have shown : decorators.map (Decorator.tree arena) = trees := depicts.shown
  rw [← shown, List.find?_map]
  rfl

theorem Yields.report {Next : Type} {fault : SyntaxFault} {span : Span}
    {next : Unit → Parse Next} [keeps : ∀ result, Keeps (next result)]
    {after : Next → State → Prop} :
    Yields state (Grammar.report fault span >>= next) after :=
  .inl ((keeps ()).keeps _ (state.faulty_report fault span))

theorem yields_externalName {decorators : List Decorator}
    {trees : List DecoratorTree} (ready : state.Ready)
    (depicts : state.arena.Depicts decorators trees) :
    Yields state (externalName decorators) fun external _ =>
      externalOf? trees = some external := by
  unfold externalName externalOf?
  rw [find?_depicted depicts]
  split
  · next none =>
      rw [none]
      exact .pure ready rfl
  · next decorator found =>
      rw [found]
      have member := List.mem_of_find?_eq_some found
      have arguments : state.arena.Depicts decorator.arguments
          (decorator.tree state.arena).arguments := by
        refine ⟨fun point inArguments => ?_, rfl⟩
        refine depicts.stored point (List.mem_flatMap.mpr
          ⟨decorator, member, ?_⟩)
        simpa [Depicted.points, Decorator.points, eq_comm] using inArguments
      refine .inspect ?_
      split
      · exact .report
      · next name known =>
          rw [Option.map_some]
          dsimp only
          rw [stringContents_eq ready.closed arguments known]
          exact .pure ready rfl
      · next moduleName name known =>
          rw [Option.map_some]
          dsimp only
          rw [stringContents_eq ready.closed arguments known]
          exact .pure ready rfl
      · exact .report

/-! ## Functions -/

/-- A token that is passed over. -/
theorem Yields.skip {Next : Type} {next : Unit → Parse Next}
    {after : Next → State → Prop} (ready : state.Ready)
    (second : ∀ later, state.Leads later → Yields later (next ()) after) :
    Yields state (Grammar.advance >>= next) after := by
  have unfolded : (Grammar.advance >>= next) state = next () state.advance :=
    rfl
  exact continued unfolded ready.advance (second _ ready.advance)

theorem yields_parameterModifier (ready : state.Ready) :
    Yields state parameterModifier fun _ _ => True := by
  refine .inspect (.inspect ?_)
  split <;> exact .pure ready trivial

theorem yields_skipParameterModifiers :
    ∀ (bound : Nat) {state : State}, state.Ready →
      Yields state (skipParameterModifiers bound) fun _ _ => True
  | 0, _, ready => .pure ready trivial
  | bound + 1, _, ready => by
      refine .bind (yields_parameterModifier ready) ?_
      intro isModifier later leads _
      refine .ite (fun _ => ?_) fun _ => .pure leads.ready trivial
      exact .skip leads.ready fun last further =>
        yields_skipParameterModifiers bound further.ready

theorem yields_parameter (ready : state.Ready) (flat : state.depth = 0) :
    Yields state parameter fun param later =>
      ∃ tree, later.arena.Depicts param tree ∧
        tree.Grammatical ∧ isName tree.name = true := by
  refine .inspect (.inspect (.bind (yields_skipParameterModifiers _ ready) ?_))
  intro _ first leads _
  refine .bind (yields_expectIdentifier leads.ready) ?_
  rintro name second further ⟨named, _⟩
  refine .inspect (.ite (fun _ => .failHere) fun _ => ?_)
  refine .eatSymbol further.ready (fun third onward _ => ?_) fun _ => .failAt
  refine .bind (yields_typeExpr onward.ready) fun type fourth next typeRead => ?_
  have earlier := leads.trans (further.trans (onward.trans next))
  refine .bind (yields_optionalInitializer next.ready
    (earlier.depth.trans flat)) ?_
  rintro value last final ⟨tree, depicts, standalone⟩
  refine .spanFrom fun span => .pure final.ready
    ⟨⟨name.text, type.shape, tree⟩, ⟨fun point member => ?_, ?_⟩,
      ⟨isWord_of_isName named, typeRead.grammatical, standalone⟩, named⟩
  · refine depicts.stored point ?_
    simpa [Depicted.points, Param.points, optionalPoints, eq_comm] using member
  · exact congrArg (SlotTree.mk name.text type.shape) depicts.shown

theorem yields_parameters (ready : state.Ready) (flat : state.depth = 0) :
    Yields state parameters fun params later =>
      ∃ trees, later.arena.Depicts params trees ∧
        ∀ tree ∈ trees, tree.Grammatical ∧ isName tree.name = true := by
  refine .bind (.expectSymbol ready) fun _ later leads _ => ?_
  exact yields_listUntil (fun _ ready same => yields_parameter ready same)
    leads.ready (leads.depth.trans flat)

theorem yields_separatedAny {Result : Type} {item : Parse Result} [Accounts item]
    (spec : ∀ {state : State}, state.Ready →
      Yields state item fun _ _ => True) :
    ∀ (bound : Nat) {state : State}, state.Ready →
      Yields state (separatedItems item bound) fun _ _ => True
  | 0, _, _ => .failHere
  | bound + 1, _, ready => by
      refine .bind (spec ready) fun _ later leads _ => ?_
      refine .eatSymbol leads.ready (fun second further _ => ?_) fun _ => ?_
      · refine .bind (yields_separatedAny spec bound further.ready) ?_
        exact fun _ last onward _ => .pure onward.ready trivial
      · exact .pure leads.ready trivial

theorem yields_anyType (ready : state.Ready) :
    Yields state typeExpr fun _ _ => True :=
  (yields_typeExpr ready).imp fun _ _ _ _ => trivial

theorem yields_typeParameter (ready : state.Ready) :
    Yields state typeParameter fun _ _ => True := by
  refine .bind (.discard (yields_expectIdentifier ready)) ?_
  intro _ later leads _
  refine .eatIdentifier leads.ready fun second isEaten further => ?_
  refine .ite (fun _ => ?_) fun _ => .pure further.ready trivial
  exact (Yields.discard (yields_anyType further.ready)).imp
    fun _ _ _ _ => trivial

theorem yields_skipTypeParameters (ready : state.Ready) :
    Yields state skipTypeParameters fun _ _ => True := by
  refine .eatSymbol ready (fun later leads _ => ?_) fun _ => ?_
  · refine .bind (.discard (.inspect (yields_separatedAny
      yields_typeParameter _ leads.ready))) ?_
    intro _ second further _
    exact (yields_expectClosingAngle further.ready).imp fun _ _ _ _ => trivial
  · exact .pure ready trivial

theorem yields_optionalBody (ready : state.Ready) (flat : state.depth = 0) :
    Yields state optionalBody fun body later =>
      ∃ tree, later.arena.Depicts body tree ∧
        ∀ statements ∈ tree, StmtTree.AllGrammatical statements := by
  refine .inspect (.ite (fun _ => ?_) fun _ => ?_)
  · refine .bind (yields_block ready flat) ?_
    rintro block later leads ⟨trees, depicts, grammatical⟩
    exact .pure leads.ready ⟨some trees, depicts.some, by simpa⟩
  · refine .bind (yields_optionalSemicolon ready) fun _ later leads _ => ?_
    exact .pure leads.ready ⟨none, .none, by simp⟩

theorem depicts_function {arena : Arena} {decorators : List Decorator}
    {trees : List DecoratorTree} {params : List Param}
    {paramTrees : List SlotTree} {body : Option Block}
    {bodyTree : Option (List StmtTree)}
    (decorated : arena.Depicts decorators trees)
    (parameterized : arena.Depicts params paramTrees)
    (bodied : arena.Depicts body bodyTree) (name : Name)
    (external : Option ExternalName) (isExported isDeclared : Bool)
    (returnType : Option TypeExpr) (span : Span) :
    arena.Depicts
      (⟨name, decorators, external, isExported, isDeclared, params, returnType,
        body, span⟩ : FunctionDecl)
      ⟨name.text, trees, external, isExported, isDeclared, paramTrees,
        returnType.map TypeExpr.shape, bodyTree⟩ where
  stored point member := by
    rcases List.mem_append.mp member with inDecorators | inEntries
    · exact decorated.stored point inDecorators
    rcases List.mem_append.mp inEntries with inParams | inBody
    · exact parameterized.stored point inParams
    · exact bodied.stored point inBody
  shown := by
    have first := decorated.shown
    have second := parameterized.shown
    have third := bodied.shown
    subst first second third
    rfl

theorem yields_functionDecl {decorators : List Decorator}
    {trees : List DecoratorTree} {isExported isDeclared : Bool} {start : Span}
    (ready : state.Ready) (flat : state.depth = 0)
    (depicts : state.arena.Depicts decorators trees)
    (decorated : ∀ tree ∈ trees, tree.Grammatical) :
    Yields state (functionDecl decorators isExported isDeclared start)
      fun decl later => ∃ tree, later.arena.Depicts decl tree ∧
        tree.TopLevel := by
  unfold functionDecl
  dsimp only
  refine .bind (.expectKeyword ready) fun _ first leads _ => ?_
  refine .bind (yields_expectIdentifier leads.ready) ?_
  rintro name second further ⟨named, _⟩
  refine .bind (yields_skipTypeParameters further.ready) ?_
  intro _ third onward _
  have untilParams := leads.trans (further.trans onward)
  refine .bind (yields_parameters onward.ready
    (untilParams.depth.trans flat)) ?_
  rintro params fourth next ⟨paramTrees, paramDepicts, paramsFit⟩
  refine .bind (yields_optionalType next.ready) ?_
  intro returnType fifth typed returnFits
  have untilBody := untilParams.trans (next.trans typed)
  refine .bind (yields_optionalBody typed.ready
    (untilBody.depth.trans flat)) ?_
  rintro body sixth final ⟨bodyTree, bodyDepicts, bodyFits⟩
  have untilEnd := untilBody.trans final
  have decoratorsDepicts := depicts.extends untilEnd.extended ready.closed
  have paramsDepicts := paramDepicts.extends (typed.trans final).extended
    next.ready.closed
  refine .ite (fun _ => .report) fun notBoth => ?_
  refine .bind (yields_externalName final.ready decoratorsDepicts) ?_
  intro external last after externally
  have extended := after.extended
  have closed := final.ready.closed
  have shown := depicts_function (decoratorsDepicts.extends extended closed)
    (paramsDepicts.extends extended closed)
    (bodyDepicts.extends extended closed) name external isExported isDeclared
    returnType
  refine .spanFrom fun span => .pure after.ready ⟨_, shown span,
    ⟨isWord_of_isName named, decorated, paramsFit, returnFits, bodyFits⟩,
    named, externally, fun declared => ?_⟩
  have shape := bodyDepicts.shown
  cases body with
  | none => exact shape.symm
  | some block => simp [show isDeclared = true from declared] at notBoth

/-! ## Classes -/

theorem yields_memberModifiers :
    ∀ (bound : Nat) {state : State}, state.Ready →
      Yields state (memberModifiers bound) fun _ _ => True
  | 0, _, ready => .pure ready trivial
  | bound + 1, _, ready => by
      refine .inspect (.inspect (.ite (fun _ => ?_) fun _ =>
        .pure ready trivial))
      refine .skip ready fun later leads => ?_
      refine .bind (yields_memberModifiers bound leads.ready) ?_
      exact fun _ last further _ => .pure further.ready trivial

theorem yields_methodFrom {decorators : List Decorator}
    {trees : List DecoratorTree} {name : Name} {start : Span}
    (ready : state.Ready) (flat : state.depth = 0)
    (named : Scan.isWord name.text = true)
    (depicts : state.arena.Depicts decorators trees)
    (decorated : ∀ tree ∈ trees, tree.Grammatical) :
    Yields state (methodFrom start decorators name) fun decl later =>
      ∃ tree, later.arena.Depicts decl tree ∧ tree.InClass := by
  unfold methodFrom
  refine .bind (yields_skipTypeParameters ready) fun _ first leads _ => ?_
  refine .bind (yields_parameters leads.ready (leads.depth.trans flat)) ?_
  rintro params second further ⟨paramTrees, paramDepicts, paramsFit⟩
  refine .bind (yields_optionalType further.ready) ?_
  intro returnType third typed returnFits
  have untilBody := leads.trans (further.trans typed)
  refine .bind (yields_optionalBody typed.ready
    (untilBody.depth.trans flat)) ?_
  rintro body last final ⟨bodyTree, bodyDepicts, bodyFits⟩
  have untilEnd := untilBody.trans final
  have shown := depicts_function
    (depicts.extends untilEnd.extended ready.closed)
    (paramDepicts.extends (typed.trans final).extended further.ready.closed)
    bodyDepicts name none false false returnType
  exact .spanFrom fun span => .pure final.ready ⟨_, shown span,
    ⟨named, decorated, paramsFit, returnFits, bodyFits⟩, rfl, rfl, rfl⟩

theorem yields_fieldAfterMark {name : Name} {start : Span}
    (ready : state.Ready) (flat : state.depth = 0)
    (named : Scan.isWord name.text = true) :
    Yields state
      (do
        if ← Grammar.eatSymbol .colon then
          let type ← typeExpr
          let initializer ← optionalInitializer
          optionalSemicolon
          return (⟨name, type, initializer, ← spanFrom start⟩ : FieldDecl)
        else failAt (.untypedField name.text) name.span)
      fun decl later =>
        ∃ tree, later.arena.Depicts decl tree ∧ tree.Grammatical := by
  refine .eatSymbol ready (fun first leads _ => ?_) fun _ => .failAt
  refine .bind (yields_typeExpr leads.ready) fun type second further read => ?_
  have both := leads.trans further
  refine .bind (yields_optionalInitializer further.ready
    (both.depth.trans flat)) ?_
  rintro value third onward ⟨tree, depicts, standalone⟩
  refine .bind (yields_optionalSemicolon onward.ready) fun _ last final _ => ?_
  have stored := depicts.extends final.extended onward.ready.closed
  refine .spanFrom fun span => .pure final.ready
    ⟨⟨name.text, type.shape, tree⟩, ⟨fun point member => ?_, ?_⟩,
      named, read.grammatical, standalone⟩
  · refine stored.stored point ?_
    simpa [Depicted.points, FieldDecl.points, optionalPoints, eq_comm]
      using member
  · exact congrArg (SlotTree.mk name.text type.shape) stored.shown

theorem yields_fieldFrom {name : Name} {start : Span} (ready : state.Ready)
    (flat : state.depth = 0) (named : Scan.isWord name.text = true) :
    Yields state (fieldFrom start name) fun decl later =>
      ∃ tree, later.arena.Depicts decl tree ∧ tree.Grammatical := by
  have question {state : State} (ready : state.Ready) :
      Yields state (eatSymbol .question) fun _ _ => True :=
    .inspect (.ite (fun _ => .skip ready fun _ leads =>
      .pure leads.ready trivial) fun _ => .pure ready trivial)
  unfold fieldFrom
  refine .eatSymbol ready (fun later leads _ => ?_) fun _ => ?_
  · exact yields_fieldAfterMark leads.ready (leads.depth.trans flat) named
  · refine .bind (.discard (question ready)) fun _ later leads _ => ?_
    exact yields_fieldAfterMark leads.ready (leads.depth.trans flat) named

/-- What is known of a member that was read. -/
structure MemberRead (arena : Arena) (member : Member) : Prop where
  field : ∀ decl ∈ member.field?,
    ∃ tree, arena.Depicts decl tree ∧ tree.Grammatical
  method : ∀ decl ∈ member.method?,
    ∃ tree, arena.Depicts decl tree ∧ tree.InClass

theorem MemberRead.extends {smaller larger : Arena} {member : Member}
    (read : MemberRead smaller member) (extended : smaller.Extends larger)
    (closed : smaller.Closed) : MemberRead larger member where
  field decl found :=
    have ⟨tree, depicts, grammatical⟩ := read.field decl found
    ⟨tree, depicts.extends extended closed, grammatical⟩
  method decl found :=
    have ⟨tree, depicts, grammatical⟩ := read.method decl found
    ⟨tree, depicts.extends extended closed, grammatical⟩

theorem yields_classMember (ready : state.Ready) (flat : state.depth = 0) :
    Yields state classMember fun member later =>
      MemberRead later.arena member := by
  refine .inspect (.bind (yields_decorators ready flat) ?_)
  rintro decorators first leads ⟨trees, depicts, decorated⟩
  refine .inspect (.bind (yields_memberModifiers _ leads.ready) ?_)
  intro isStatic second further _
  refine .bind (yields_expectPropertyName further.ready) ?_
  rintro name third onward ⟨named, _⟩
  have untilName := leads.trans (further.trans onward)
  have flatThere := untilName.depth.trans flat
  have stored := depicts.extends (further.trans onward).extended
    leads.ready.closed
  refine .inspect (.inspect (.ite (fun _ => ?_) fun _ => ?_))
  · refine .bind (yields_methodFrom onward.ready flatThere named stored
      decorated) fun decl last final known => ?_
    exact .pure final.ready ⟨nofun, by simpa [Member.method?] using known⟩
  · refine .bind (yields_fieldFrom onward.ready flatThere named) ?_
    intro decl last final known
    refine .pure final.ready ?_
    cases isStatic with
    | true => exact ⟨nofun, nofun⟩
    | false => exact ⟨by simpa [Member.field?] using known, nofun⟩

theorem yields_membersUntilBrace :
    ∀ (bound : Nat) {state : State}, state.Ready → state.depth = 0 →
      Yields state (membersUntilBrace bound) fun members later =>
        ∀ member ∈ members, MemberRead later.arena member
  | 0, _, ready, _ => .pure ready (by simp)
  | bound + 1, state, ready, flat => by
      refine .inspect (.inspect (.ite (fun _ => .pure ready (by simp))
        fun _ => ?_))
      refine .eatSymbol ready (fun later leads _ => ?_) fun _ => ?_
      · exact yields_membersUntilBrace bound leads.ready
          (leads.depth.trans flat)
      refine .inspect (.ite (fun _ => .pure ready (by simp)) fun _ => ?_)
      refine @Yields.bind _ _ _ _ _ _ _ (fun first => ?_)
        (yields_classMember ready flat).attempt ?_
      · split <;> infer_instance
      rintro _ later leads ⟨first, rfl, read⟩
      refine .bind (yields_membersUntilBrace bound leads.ready
        (leads.depth.trans flat)) ?_
      intro others last further allRead
      exact .pure further.ready (List.forall_mem_cons.mpr
        ⟨read.extends further.extended leads.ready.closed, allRead⟩)

theorem yields_optionalBase (ready : state.Ready) :
    Yields state optionalBase fun type _ =>
      ∀ shape ∈ type.map TypeExpr.shape, shape.Grammatical := by
  refine .eatIdentifier ready fun later isEaten leads => ?_
  refine .ite (fun _ => ?_) fun _ => .pure leads.ready (by simp)
  refine .bind (yields_typeExpr leads.ready) fun type last further read => ?_
  exact .pure further.ready (by simpa using read.grammatical)

/-- Entries of one sort among members are depicted as their trees. -/
theorem exists_depicts_filterMap {Node Tree : Type} [Depicted Node Tree]
    {arena : Arena} {members : List Member} {part : Member → Option Node}
    {holds : Tree → Prop}
    (each : ∀ member ∈ members, ∀ node ∈ part member,
      ∃ tree, arena.Depicts node tree ∧ holds tree) :
    ∃ trees, arena.Depicts (members.filterMap part) trees ∧
      ∀ tree ∈ trees, holds tree := by
  refine Arena.exists_depicts_all fun node member => ?_
  obtain ⟨whole, inMembers, found⟩ := List.mem_filterMap.mp member
  exact each whole inMembers node found

theorem depicts_class {arena : Arena} {decorators : List Decorator}
    {trees : List DecoratorTree} {fields : List FieldDecl}
    {fieldTrees : List SlotTree} {methods : List FunctionDecl}
    {methodTrees : List FunctionTree}
    (decorated : arena.Depicts decorators trees)
    (fieldsDepict : arena.Depicts fields fieldTrees)
    (methodsDepict : arena.Depicts methods methodTrees) (name : Name)
    (isExported : Bool) (base : Option TypeExpr) (span : Span) :
    arena.Depicts
      (Item.class ⟨name, decorators, isExported, base, fields, methods, span⟩)
      (.class name.text trees isExported (base.map TypeExpr.shape) fieldTrees
        methodTrees) where
  stored point member := by
    rcases List.mem_append.mp member with inDecorators | inMembers
    · exact decorated.stored point inDecorators
    rcases List.mem_append.mp inMembers with inFields | inMethods
    · exact fieldsDepict.stored point inFields
    · exact methodsDepict.stored point inMethods
  shown := by
    have first := decorated.shown
    have second := fieldsDepict.shown
    have third := methodsDepict.shown
    subst first second third
    rfl

theorem yields_classBody {decorators : List Decorator}
    {trees : List DecoratorTree} {name : Name} {base : Option TypeExpr}
    {isExported : Bool} {start : Span} (ready : state.Ready)
    (flat : state.depth = 0) (named : isName name.text = true)
    (baseFits : ∀ shape ∈ base.map TypeExpr.shape, shape.Grammatical)
    (depicts : state.arena.Depicts decorators trees)
    (decorated : ∀ tree ∈ trees, tree.Grammatical) :
    Yields state
      (do
        expectSymbol .openBrace
        let members ← membersUntilBrace (← stepBound)
        expectSymbol .closeBrace
        return (⟨name, decorators, isExported, base,
          members.filterMap Member.field?, members.filterMap Member.method?,
          ← spanFrom start⟩ : ClassDecl))
      fun decl later =>
        ∃ tree, later.arena.Depicts (Item.class decl) tree ∧
          tree.Grammatical := by
  refine .bind (.expectSymbol ready) fun _ first leads _ => ?_
  refine .inspect (.bind (yields_membersUntilBrace _ leads.ready
    (leads.depth.trans flat)) ?_)
  intro members second further allRead
  refine .bind (.expectSymbol further.ready) fun _ last final _ => ?_
  have members (member) (inMembers : member ∈ members) :=
    (allRead member inMembers).extends final.extended further.ready.closed
  obtain ⟨fields, fieldsDepicts, fieldsFit⟩ := exists_depicts_filterMap
    fun member inMembers => (members member inMembers).field
  obtain ⟨methods, methodsDepicts, methodsFit⟩ := exists_depicts_filterMap
    fun member inMembers => (members member inMembers).method
  have untilEnd := leads.trans (further.trans final)
  have stored := depicts.extends untilEnd.extended ready.closed
  exact .spanFrom fun span => .pure final.ready
    ⟨_, depicts_class stored fieldsDepicts methodsDepicts name isExported base
      span, ⟨named, decorated, baseFits, fieldsFit, methodsFit⟩⟩

theorem yields_classDecl {decorators : List Decorator}
    {trees : List DecoratorTree} {isExported : Bool} {start : Span}
    (ready : state.Ready) (flat : state.depth = 0)
    (depicts : state.arena.Depicts decorators trees)
    (decorated : ∀ tree ∈ trees, tree.Grammatical) :
    Yields state (classDecl decorators isExported start) fun decl later =>
      ∃ tree, later.arena.Depicts (Item.class decl) tree ∧
        tree.Grammatical := by
  refine .bind (.expectKeyword ready) fun _ first leads _ => ?_
  refine .bind (yields_expectIdentifier leads.ready) ?_
  rintro name second further ⟨named, _⟩
  refine .bind (yields_skipTypeParameters further.ready) ?_
  intro _ third onward _
  refine .bind (yields_optionalBase onward.ready) ?_
  intro base fourth next baseFits
  have untilBase := leads.trans (further.trans (onward.trans next))
  refine .eatIdentifier next.ready fun fifth isEaten final => ?_
  have untilWord := untilBase.trans final
  refine .ite (fun _ => ?_) fun _ => ?_
  · refine .bind (.discard (.inspect (yields_separatedAny yields_anyType _
      final.ready))) fun _ last after _ => ?_
    have untilBody := untilWord.trans after
    exact yields_classBody after.ready (untilBody.depth.trans flat) named
      baseFits (depicts.extends untilBody.extended ready.closed) decorated
  · exact yields_classBody final.ready (untilWord.depth.trans flat) named
      baseFits (depicts.extends untilWord.extended ready.closed) decorated

/-! ## Variables, imports and exports -/

theorem depicts_variable {arena : Arena} {decorators : List Decorator}
    {trees : List DecoratorTree} {value : Option ExprId}
    {valueTree : Option ExprTree} (decorated : arena.Depicts decorators trees)
    (valued : arena.Depicts value valueTree) (kind : BindingKind) (name : Name)
    (type : Option TypeExpr) (isExported : Bool) (span : Span) :
    arena.Depicts
      (Item.variable ⟨kind, name, type, value, isExported, decorators, span⟩)
      (.variable kind name.text (type.map TypeExpr.shape) valueTree isExported
        trees) where
  stored point member := by
    rcases List.mem_append.mp member with inDecorators | inValue
    · exact decorated.stored point inDecorators
    · refine valued.stored point ?_
      simpa [Depicted.points, optionalPoints, eq_comm] using inValue
  shown := by
    have first := decorated.shown
    have second := valued.shown
    subst first second
    rfl

theorem yields_variableDecl {kind : BindingKind} {decorators : List Decorator}
    {trees : List DecoratorTree} {isExported : Bool} {start : Span}
    (ready : state.Ready) (flat : state.depth = 0)
    (depicts : state.arena.Depicts decorators trees)
    (decorated : ∀ tree ∈ trees, tree.Grammatical) :
    Yields state (variableDecl kind decorators isExported start)
      fun decl later => ∃ tree, later.arena.Depicts (Item.variable decl) tree ∧
        tree.Grammatical := by
  unfold variableDecl
  refine .skip ready fun first leads => ?_
  refine .bind (yields_expectIdentifier leads.ready) ?_
  rintro name second further ⟨named, _⟩
  refine .bind (yields_optionalType further.ready) ?_
  intro type third typed typeFits
  have untilValue := leads.trans (further.trans typed)
  refine .bind (yields_optionalInitializer typed.ready
    (untilValue.depth.trans flat)) ?_
  rintro value fourth onward ⟨tree, valueDepicts, standalone⟩
  refine .bind (yields_optionalSemicolon onward.ready) fun _ last final _ => ?_
  have untilEnd := untilValue.trans (onward.trans final)
  have stored := depicts.extends untilEnd.extended ready.closed
  have valueStored := valueDepicts.extends final.extended onward.ready.closed
  exact .spanFrom fun span => .pure final.ready
    ⟨_, depicts_variable stored valueStored kind name type isExported span,
      ⟨named, typeFits, standalone, decorated⟩⟩

theorem yields_optionalRename (ready : state.Ready) :
    Yields state optionalRename fun name _ =>
      ∀ newName ∈ name, isName newName.text = true := by
  refine .eatKeyword ready (fun later leads _ => ?_) fun _ => ?_
  · refine .bind (yields_expectIdentifier leads.ready) ?_
    rintro name last further ⟨named, _⟩
    exact .pure further.ready (by simpa using named)
  · exact .pure ready nofun

theorem yields_exportMember (ready : state.Ready) :
    Yields state exportMember fun member later =>
      ∃ tree, later.arena.Depicts member tree ∧ isName tree.1 = true ∧
        ∀ newName ∈ tree.2, isName newName = true := by
  refine .bind (yields_expectIdentifier ready) ?_
  rintro name later leads ⟨named, _⟩
  refine .bind (yields_optionalRename leads.ready) ?_
  intro newName last further renamed
  refine .pure further.ready ⟨_, ⟨nofun, rfl⟩, named, ?_⟩
  simpa [Depicted.tree] using renamed

theorem yields_exportEnd {members : List ExportMember}
    {source : Option String} {start : Span} (ready : state.Ready)
    (named : (Item.exportList ⟨members, source, start⟩).tree state.arena
      |>.Grammatical) :
    Yields state
      (do
        optionalSemicolon
        return (⟨members, source, ← spanFrom start⟩ : ExportDecl))
      fun decl later =>
        ∃ tree, later.arena.Depicts (Item.exportList decl) tree ∧
          tree.Grammatical := by
  refine .bind (yields_optionalSemicolon ready) fun _ last final _ => ?_
  exact .spanFrom fun span => .pure final.ready ⟨_, ⟨nofun, rfl⟩, named⟩

theorem yields_exportDecl {start : Span} (ready : state.Ready)
    (flat : state.depth = 0) :
    Yields state (exportDecl start) fun decl later =>
      ∃ tree, later.arena.Depicts (Item.exportList decl) tree ∧
        tree.Grammatical := by
  unfold exportDecl
  refine .bind (.expectSymbol ready) fun _ first leads _ => ?_
  refine .bind (yields_listUntil (fun _ ready _ => yields_exportMember ready)
    leads.ready (leads.depth.trans flat)) ?_
  rintro members second further ⟨trees, depicts, named⟩
  cases depicts.shown
  refine .eatKeyword further.ready (fun third onward _ => ?_) fun _ => ?_
  · refine .bind (yields_expectString onward.ready) ?_
    intro source last final _
    exact .continued rfl final.ready.leads (yields_exportEnd final.ready named)
  · exact .continued rfl further.ready.leads
      (yields_exportEnd further.ready named)

theorem yields_importMember (ready : state.Ready) :
    Yields state importMember fun member later =>
      ∃ tree, later.arena.Depicts member tree ∧ isName tree.1 = true ∧
        isName tree.2 = true := by
  refine .bind (yields_expectIdentifier ready) ?_
  rintro name later leads ⟨named, _⟩
  refine .bind (yields_optionalRename leads.ready) ?_
  intro newName last further renamed
  refine .pure further.ready ⟨_, ⟨nofun, rfl⟩, named, ?_⟩
  cases newName with
  | none => exact named
  | some newName => exact renamed newName rfl

theorem yields_importNames (ready : state.Ready) (flat : state.depth = 0) :
    Yields state importNames fun names _ =>
      (∀ member ∈ names.2, isName member.importedName.text = true ∧
        isName member.localName.text = true) ∧
      ∀ name ∈ names.1, isName name.text = true ∧ names.2 = [] := by
  refine .inspect ?_
  split
  · exact .pure ready ⟨by simp, by simp⟩
  · next found =>
      refine .advance ready found (by simp) fun first leads _ => ?_
      refine .bind (.expectKeyword leads.ready) fun _ second further _ => ?_
      refine .bind (yields_expectIdentifier further.ready) ?_
      rintro name last onward ⟨named, _⟩
      exact .pure onward.ready ⟨by simp, by simpa using named⟩
  · refine .bind (.expectSymbol ready) fun _ first leads _ => ?_
    refine .bind (yields_listUntil (fun _ ready _ => yields_importMember ready)
      leads.ready (leads.depth.trans flat)) ?_
    rintro members last further ⟨trees, depicts, named⟩
    cases depicts.shown
    refine .pure further.ready ⟨fun member inMembers => ?_, by simp⟩
    exact named _ (List.mem_map_of_mem inMembers)

theorem yields_importEnd {members : List ImportMember}
    {namespaceName : Option Name} {start : Span} (ready : state.Ready)
    (named : (Item.importList ⟨members, namespaceName, "", start⟩).tree
      state.arena |>.Grammatical) :
    Yields state
      (do
        let source ← expectString
        optionalSemicolon
        return (⟨members, namespaceName, source, ← spanFrom start⟩ :
          ImportDecl))
      fun decl later =>
        ∃ tree, later.arena.Depicts (Item.importList decl) tree ∧
          tree.Grammatical := by
  refine .bind (yields_expectString ready) fun source later leads _ => ?_
  refine .bind (yields_optionalSemicolon leads.ready) fun _ last final _ => ?_
  exact .spanFrom fun span => .pure final.ready ⟨_, ⟨nofun, rfl⟩, named⟩

theorem yields_importDecl {start : Span} (ready : state.Ready)
    (flat : state.depth = 0) :
    Yields state (importDecl start) fun decl later =>
      ∃ tree, later.arena.Depicts (Item.importList decl) tree ∧
        tree.Grammatical := by
  refine .bind (.expectKeyword ready) fun _ first leads _ => ?_
  refine .bind (yields_importNames leads.ready (leads.depth.trans flat)) ?_
  rintro ⟨namespaceName, members⟩ second further ⟨membersNamed, spaceNamed⟩
  have named (arena : Arena) :
      ((Item.importList ⟨members, namespaceName, "", start⟩).tree
        arena).Grammatical := by
    refine ⟨by simpa using membersNamed, fun name found => ?_⟩
    obtain ⟨whole, inName, rfl⟩ := Option.map_eq_some_iff.mp found
    have alone : members = [] := (spaceNamed whole inName).2
    exact ⟨(spaceNamed whole inName).1, by rw [alone]; rfl⟩
  refine .inspect (.ite (fun _ => ?_) fun _ => ?_)
  · refine .bind (.expectKeyword further.ready) fun _ last onward _ => ?_
    exact yields_importEnd onward.ready (named _)
  · exact yields_importEnd further.ready (named _)

/-! ## Items -/

theorem yields_declarationItem {decorators : List Decorator}
    {trees : List DecoratorTree} {isExported isDeclared : Bool} {start : Span}
    (ready : state.Ready) (flat : state.depth = 0)
    (depicts : state.arena.Depicts decorators trees)
    (decorated : ∀ tree ∈ trees, tree.Grammatical) :
    Yields state (declarationItem decorators isExported isDeclared start)
      fun item later =>
        ∃ tree, later.arena.Depicts item tree ∧ tree.Grammatical := by
  have bound {kind : BindingKind} :
      Yields state
        (do
          let variable_ ← variableDecl kind decorators isExported start
          return Item.variable variable_)
        fun item later =>
          ∃ tree, later.arena.Depicts item tree ∧ tree.Grammatical :=
    .bind (yields_variableDecl ready flat depicts decorated)
      fun _ _ leads known => .pure leads.ready known
  refine .inspect ?_
  split
  · refine .bind (yields_functionDecl ready flat depicts decorated) ?_
    rintro decl later leads ⟨tree, shown, topLevel⟩
    exact .pure leads.ready ⟨.function tree,
      ⟨shown.stored, congrArg ItemTree.function shown.shown⟩, topLevel⟩
  · exact .bind (yields_classDecl ready flat depicts decorated)
      fun _ _ leads known => .pure leads.ready known
  · exact bound
  · exact bound
  · exact bound
  · refine .ite (fun _ => .failHere) fun _ => ?_
    exact .bind (yields_importDecl ready flat)
      fun _ _ leads known => .pure leads.ready known
  · exact .ite (fun _ => .failHere) fun _ => .failHere
  · exact .ite (fun _ => .failHere) fun _ => .failHere
  · exact .failHere

theorem yields_item (ready : state.Ready) (flat : state.depth = 0) :
    Yields state item fun item later =>
      ∃ tree, later.arena.Depicts item tree ∧ tree.Grammatical := by
  refine .inspect (.bind (yields_decorators ready flat) ?_)
  rintro decorators first leads ⟨trees, depicts, decorated⟩
  have anyKeyword {word : Keyword} {state : State} (ready : state.Ready) :
      Yields state (eatKeyword word) fun _ _ => True :=
    .inspect (.ite (fun _ => .skip ready fun _ leads =>
      .pure leads.ready trivial) fun _ => .pure ready trivial)
  refine .bind (anyKeyword leads.ready) fun isExported second further _ => ?_
  have flatThere := (leads.trans further).depth.trans flat
  refine .inspect (.ite (fun _ => ?_) fun _ => ?_)
  · exact .bind (yields_exportDecl further.ready flatThere)
      fun _ _ leads known => .pure leads.ready known
  · refine .bind (anyKeyword further.ready) fun isDeclared last onward _ => ?_
    exact yields_declarationItem onward.ready (onward.depth.trans flatThere)
      (depicts.extends (further.trans onward).extended leads.ready.closed)
      decorated

theorem yields_itemsToEnd :
    ∀ (bound : Nat) {state : State}, state.Ready → state.depth = 0 →
      Yields state (itemsToEnd bound) fun items later =>
        ∃ trees, later.arena.Depicts items trees ∧
          ∀ tree ∈ trees, tree.Grammatical
  | 0, _, ready, _ => .pure ready ⟨[], .nil, nofun⟩
  | bound + 1, state, ready, flat => by
      refine .inspect (.inspect (.ite (fun _ =>
        .pure ready ⟨[], .nil, nofun⟩) fun _ => ?_))
      refine .eatSymbol ready (fun later leads _ => ?_) fun _ => ?_
      · exact yields_itemsToEnd bound leads.ready (leads.depth.trans flat)
      refine @Yields.bind _ _ _ _ _ _ _ (fun first => ?_)
        (yields_item ready flat).attempt ?_
      · split <;> infer_instance
      rintro _ later leads ⟨first, rfl, tree, depicts, grammatical⟩
      refine .bind (yields_itemsToEnd bound leads.ready
        (leads.depth.trans flat)) ?_
      rintro others last further ⟨trees, otherDepicts, all⟩
      have stored := depicts.extends further.extended leads.ready.closed
      exact .pure further.ready ⟨tree :: trees, stored.cons otherDepicts,
        List.forall_mem_cons.mpr ⟨grammatical, all⟩⟩

theorem yields_items (ready : state.Ready) (flat : state.depth = 0) :
    Yields state items fun items later =>
      ∃ trees, later.arena.Depicts items.1 trees ∧
        ∀ tree ∈ trees, tree.Grammatical := by
  refine .inspect (.inspect (.bind (yields_itemsToEnd _ ready flat) ?_))
  rintro items later leads ⟨trees, depicts, all⟩
  exact .spanFrom fun span => .pure leads.ready ⟨trees, depicts, all⟩

/-! ## Programs -/

theorem isLexed_completed {tokens : List Token}
    (lexed : ∀ token ∈ tokens, token.kind.IsLexed) :
    ∀ token ∈ completed tokens, token.kind.IsLexed := by
  have finish : (finishOf tokens).kind = .endOfFile → ∀ token ∈
      [finishOf tokens], token.kind.IsLexed := by
    rintro isEnd token member
    rw [List.mem_singleton.mp member, isEnd]
    trivial
  unfold completed
  split
  · next last found =>
      split
      · exact lexed
      · next notEnd =>
          intro token member
          rcases List.mem_append.mp member with inTokens | isFinish
          · exact lexed token inTokens
          · exact finish (by simp [finishOf, found, notEnd]) token isFinish
  · next found => exact finish (by simp [finishOf, found])

theorem parse_grammatical {source : SourceText} {kind : SourceKind}
    {tokens : List Token} {program : Program}
    (lexed : ∀ token ∈ tokens, token.kind.IsLexed)
    (parsed : parse source kind tokens = .ok program) :
    program.tree.Grammatical := by
  have ready : (initialState source tokens).Ready :=
    ⟨Arena.closed_empty, isLexed_completed lexed, kind_finishOf tokens⟩
  have read := yields_items ready rfl
  unfold parse at parsed
  rcases ran : items (initialState source tokens) with ⟨result, state⟩
  rw [ran] at parsed
  unfold Yields at read
  rw [ran] at read
  dsimp only at parsed
  split at parsed
  · next clean =>
      rcases read with faulty | ⟨found, given, _, trees, depicts, all⟩
      · rw [State.Faulty, clean] at faulty
        cases faulty
      · cases given
        cases parsed
        cases depicts.shown
        exact all
  · cases parsed

end Grammar

end PluginSurface
