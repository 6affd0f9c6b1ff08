import PluginSurface.Proofs.Grammar.ParsedDeclarations
import PluginSurface.Proofs.Grammar.PrintedStatements

/-!
# Declarations as they are printed

The tokens of a printable function or class are read as that declaration.
Modifiers, type parameters and the interfaces of a class are not printed, so a
parser finds none of them.
-/

namespace PluginSurface

open Grammar

namespace Grammar

variable {Next : Type} {state : State} {rest : List TokenKind}

/-! ## Names that are eaten -/

theorem Gives.eatIdentifier {name : String} {next : Bool → Parse Next}
    {after : Next → State → Prop} (ready : state.Ready)
    (kinds : state.kinds = .identifier name :: rest)
    (second : ∀ later, state.Reaches later → later.kinds = rest →
      Gives later (next true) after) :
    Gives state (Grammar.eatIdentifier name >>= next) after := by
  have found := ready.current_kind kinds
  have unfolded : (Grammar.eatIdentifier name >>= next) state =
      next true state.advance := by
    simp [Grammar.eatIdentifier, currentKind, Parse.inspect, Bind.bind, found,
      TokenKind.isIdentifier, Grammar.advance, Pure.pure]
  exact continued unfolded ready.reaches_advance
    (second _ ready.reaches_advance (State.kinds_advance kinds))

theorem Gives.leaveIdentifier {name : String} {next : Bool → Parse Next}
    {after : Next → State → Prop} {mark : Symbol} (ready : state.Ready)
    (kinds : state.kinds = .symbol mark :: rest)
    (second : Gives state (next false) after) :
    Gives state (Grammar.eatIdentifier name >>= next) after := by
  have found := ready.current_kind kinds
  have unfolded : (Grammar.eatIdentifier name >>= next) state =
      next false state := by
    simp [Grammar.eatIdentifier, currentKind, Parse.inspect, Bind.bind, found,
      TokenKind.isIdentifier, Pure.pure]
  exact continued unfolded ready.reaches second

/-! ## Decorators -/

theorem gives_decoratorFrom {tree : DecoratorTree} {start : Span}
    (grammatical : tree.Grammatical) (printable : tree.isPrintable = true)
    (outside : state.Outside)
    (kinds : .symbol .atSign :: state.kinds = tree.kinds ++ rest)
    (notCall : rest.head? ≠ some (.symbol .openParen)) :
    Gives state (decoratorFrom start) (Renders tree.guarded rest) := by
  obtain ⟨name, arguments⟩ := tree
  unfold decoratorFrom
  dsimp only
  cases arguments with
  | nil =>
      have inside : state.kinds = .ofWord name :: rest :=
        (List.cons.inj kinds).2
      refine .bind (gives_expectPropertyName outside.ready inside) ?_
      rintro name later reaches ⟨rfl, onward⟩
      refine .leaveSymbol reaches.ready (onward ▸ notCall) ?_
      refine .continued rfl reaches.ready.reaches (.spanFrom fun span =>
        .pure reaches.ready ⟨⟨nofun, rfl⟩, onward⟩)
  | cons first others =>
      have inside : state.kinds = .ofWord name :: .symbol .openParen ::
          (joinedKinds (ExprTree.kindsOfAll (first :: others)) ++
            .symbol .closeParen :: rest) := by
        rw [(List.cons.inj kinds).2]
        simp
      refine .bind (gives_expectPropertyName outside.ready inside) ?_
      rintro name later reaches ⟨rfl, onward⟩
      refine .eatSymbol reaches.ready onward fun second further remaining => ?_
      have flat := (reaches.trans further).depth.trans outside.flat
      refine .bind (gives_decoratorArguments grammatical.arguments printable
        further.ready flat remaining) ?_
      rintro ids last final ⟨depicts, left⟩
      refine .spanFrom fun span => .pure final.ready
        ⟨⟨fun point member => depicts.stored point ?_, ?_⟩, left⟩
      · simpa [Depicted.points, Decorator.points, eq_comm] using member
      · exact congrArg (DecoratorTree.mk name.text) depicts.shown

theorem gives_decoratorsAt {trees : List DecoratorTree}
    (grammatical : ∀ tree ∈ trees, tree.Grammatical)
    (printable : trees.all DecoratorTree.isPrintable = true)
    (plain : rest.head? ≠ some (.symbol .atSign) ∧
      rest.head? ≠ some (.symbol .openParen)) {bound : Nat} {state : State}
    (outside : state.Outside)
    (kinds : state.kinds = trees.flatMap DecoratorTree.kinds ++ rest)
    (more : trees.length < bound) :
    Gives state (decoratorsAt bound)
      (Renders (trees.map DecoratorTree.guarded) rest) := by
  induction trees generalizing bound state with
  | nil =>
      obtain ⟨bound, rfl⟩ := Nat.exists_eq_succ_of_ne_zero
        (Nat.ne_zero_of_lt more)
      refine .inspect (.leaveSymbol outside.ready ?_
        (.pure outside.ready ⟨.nil, kinds⟩))
      rw [kinds]
      exact plain.1
  | cons tree others inductionHypothesis =>
      obtain ⟨bound, rfl⟩ := Nat.exists_eq_succ_of_ne_zero
        (Nat.ne_zero_of_lt more)
      obtain ⟨first, later⟩ := List.forall_mem_cons.mp grammatical
      simp only [List.all_cons, Bool.and_eq_true] at printable
      rw [List.flatMap_cons, List.append_assoc] at kinds
      have front : ∃ behind, state.kinds = .symbol .atSign :: behind :=
        ⟨_, kinds⟩
      obtain ⟨behind, inside⟩ := front
      refine .inspect (.eatSymbol outside.ready inside
        fun second reaches onward => ?_)
      have beyond : (others.flatMap DecoratorTree.kinds ++ rest).head? ≠
          some (.symbol .openParen) := by
        cases others with
        | nil => exact plain.2
        | cons next others => nofun
      refine .bind (gives_decoratorFrom first printable.1
        (outside.onward reaches) ?_ beyond) ?_
      · rw [onward, ← inside, kinds]
      rintro decorator third further ⟨depicts, remaining⟩
      refine .bind (inductionHypothesis later printable.2
        (outside.onward (reaches.trans further)) remaining
        (Nat.lt_of_succ_lt_succ more)) ?_
      rintro decorators last final ⟨othersDepict, left⟩
      have stored := depicts.extends final.extended further.ready.closed
      exact .pure final.ready ⟨stored.cons othersDepict, left⟩

/-- Parts that each have some token are no more than their tokens. -/
theorem length_le_flatMap {Part : Type} (kinds : Part → List TokenKind)
    (parts : List Part) (some_kind : ∀ part ∈ parts, kinds part ≠ []) :
    parts.length ≤ (parts.flatMap kinds).length := by
  induction parts with
  | nil => exact Nat.le_refl _
  | cons part others inductionHypothesis =>
      obtain ⟨first, later⟩ := List.forall_mem_cons.mp some_kind
      have one := List.length_pos_iff.mpr first
      have more := inductionHypothesis later
      simp only [List.flatMap_cons, List.length_append, List.length_cons]
      omega

theorem gives_decorators {trees : List DecoratorTree}
    (grammatical : ∀ tree ∈ trees, tree.Grammatical)
    (printable : trees.all DecoratorTree.isPrintable = true)
    (plain : rest.head? ≠ some (.symbol .atSign) ∧
      rest.head? ≠ some (.symbol .openParen)) (outside : state.Outside)
    (kinds : state.kinds = trees.flatMap DecoratorTree.kinds ++ rest) :
    Gives state decorators (Renders (trees.map DecoratorTree.guarded) rest) := by
  refine .inspect (gives_decoratorsAt grammatical printable plain outside kinds ?_)
  have short := length_le_flatMap DecoratorTree.kinds trees
    fun tree _ => List.cons_ne_nil _ _
  rw [← State.kinds_length, kinds, List.length_append]
  omega

/-! ### Host names -/

theorem stringContents?_guarded (trees : List ExprTree) :
    stringContents? (ExprTree.allGuarded trees) = stringContents? trees := by
  induction trees with
  | nil => rfl
  | cons tree others inductionHypothesis =>
      rw [ExprTree.allGuarded]
      cases tree <;>
        simp [stringContents?, ExprTree.guarded, inductionHypothesis]

theorem externalOf?_guarded (trees : List DecoratorTree) :
    externalOf? (trees.map DecoratorTree.guarded) = externalOf? trees := by
  have same : ((fun tree => tree.name == "external") ∘ DecoratorTree.guarded) =
      fun tree => tree.name == "external" := rfl
  unfold externalOf?
  rw [List.find?_map, same]
  cases trees.find? fun tree => tree.name == "external" with
  | none => rfl
  | some tree =>
      simp only [Option.map_some, DecoratorTree.guarded,
        stringContents?_guarded]

theorem stringContents_of_trees {arena : Arena} (closed : arena.Closed)
    {ids : List ExprId} {contents : List String}
    (given : stringContents? (ids.map arena.exprTree) = some contents) :
    stringContents arena ids = .ok contents := by
  induction ids generalizing contents with
  | nil =>
      cases given
      rfl
  | cons id others inductionHypothesis =>
      rw [List.map_cons, closed.exprTree_eq id] at given
      rcases stored : arena.expr id with ⟨node, span⟩
      rw [stored] at given
      rw [stringContents, stored]
      cases node with
      | literal literal =>
          cases literal with
          | string content =>
              obtain ⟨tail, found, rfl⟩ := Option.map_eq_some_iff.mp given
              simp only [inductionHypothesis found, Except.map]
          | _ => cases given
      | _ => cases given

variable {decorators : List Decorator} {trees : List DecoratorTree}
  {external : Option ExternalName}

theorem gives_externalName (ready : state.Ready)
    (depicts : state.arena.Depicts decorators trees)
    (given : externalOf? trees = some external) :
    Gives state (externalName decorators) fun result later =>
      result = external ∧ later.kinds = state.kinds := by
  unfold externalOf? at given
  rw [find?_depicted depicts] at given
  unfold externalName
  cases found : decorators.find? fun decorator =>
      decorator.name.text == "external" with
  | none =>
      rw [found] at given
      cases given
      exact .pure ready ⟨rfl, rfl⟩
  | some decorator =>
      rw [found] at given
      dsimp only [Option.map_some, Decorator.tree] at given
      refine .inspect ?_
      split at given
      · next name contents =>
          rw [stringContents_of_trees ready.closed contents]
          cases given
          exact .pure ready ⟨rfl, rfl⟩
      · next moduleName name contents =>
          rw [stringContents_of_trees ready.closed contents]
          cases given
          exact .pure ready ⟨rfl, rfl⟩
      · cases given

/-! ## Parameters -/

theorem gives_skipParameterModifiers {name : String} (ready : state.Ready)
    (kinds : state.kinds = .ofWord name :: .symbol .colon :: rest)
    (bound : Nat) :
    Gives state (skipParameterModifiers bound) fun _ later => later = state := by
  cases bound with
  | zero => exact .pure ready rfl
  | succ bound =>
      have next := ready.lookAhead_one kinds
      have plain : Gives state parameterModifier fun result later =>
          result = false ∧ later = state := by
        refine .inspect (.inspect ?_)
        rw [next]
        split <;> exact .pure ready ⟨rfl, rfl⟩
      refine .bind plain ?_
      rintro _ _ _ ⟨rfl, rfl⟩
      exact .pure ready rfl

/-- A type with an initial value behind it. -/
theorem gives_typeAndInitializer {tree : SlotTree}
    {next : TypeExpr → Option ExprId → Parse Next}
    {after : Next → State → Prop} (grammatical : tree.Grammatical)
    (printable : tree.isPrintable = true) (ready : state.Ready)
    (flat : state.depth = 0)
    (kinds : state.kinds = tree.type.kinds ++
      (ExprTree.initializedKinds tree.initializer ++ rest))
    (typed : TypeEnded rest) (ended : Ended rest) (inert : Inert rest)
    (second : ∀ type value later, state.Reaches later →
      type.shape = tree.type →
        Renders (tree.initializer.map ExprTree.guarded) rest value later →
          Gives later (next type value) after) :
    Gives state
      (do
        let type ← typeExpr
        let value ← optionalInitializer
        next type value) after := by
  have both := Bool.and_eq_true_iff.mp printable
  have ends := (typed.initialized tree.initializer).ends.2
  refine .bind (gives_typeExpr grammatical.type both.1 ready kinds (ends _)) ?_
  rintro type later reaches ⟨shape, onward⟩
  refine .bind (gives_optionalInitializer grammatical.initializer both.2
    reaches.ready (reaches.depth.trans flat) onward ended inert) ?_
  intro value last further renders
  exact second type value last (reaches.trans further) shape renders

theorem depicts_slot {Node : Type} [Depicted Node SlotTree] {arena : Arena}
    {node : Node} {tree : SlotTree} (value : Option ExprId)
    (points : Depicted.points node = optionalPoints value)
    (shown : Depicted.tree arena node =
      ⟨tree.name, tree.type, value.map arena.exprTree⟩)
    (depicts : arena.Depicts value (tree.initializer.map ExprTree.guarded)) :
    arena.Depicts node tree.guarded where
  stored point member := by
    rw [points] at member
    refine depicts.stored point ?_
    simpa [Depicted.points, optionalPoints, eq_comm] using member
  shown := by
    rw [shown]
    exact congrArg (SlotTree.mk tree.name tree.type) depicts.shown

theorem gives_parameter {tree : SlotTree} (grammatical : tree.Grammatical)
    (named : isName tree.name = true) (printable : tree.isPrintable = true)
    (ready : state.Ready) (flat : state.depth = 0)
    (kinds : state.kinds = tree.kinds ++ rest) (typed : TypeEnded rest)
    (ended : Ended rest) (inert : Inert rest) :
    Gives state parameter (Renders tree.guarded rest) := by
  have inside : state.kinds = .ofWord tree.name :: .symbol .colon ::
      (tree.type.kinds ++
        (ExprTree.initializedKinds tree.initializer ++ rest)) := by
    rw [kinds]
    simp [SlotTree.kinds]
  refine .inspect (.inspect (.bind (gives_skipParameterModifiers ready inside _)
    ?_))
  rintro _ _ _ rfl
  refine .bind (gives_expectIdentifier ready named inside) ?_
  rintro name later reaches ⟨same, onward⟩
  refine .inspect (.isFalse ?_ ?_)
  · rw [reaches.ready.current_kind onward]
    decide
  refine .eatSymbol reaches.ready onward fun second further remaining => ?_
  have flatThere := (reaches.trans further).depth.trans flat
  refine gives_typeAndInitializer grammatical printable further.ready flatThere
    remaining typed ended inert ?_
  rintro type value last final shape ⟨depicts, left⟩
  refine .spanFrom fun span => .pure final.ready ⟨?_, left⟩
  refine depicts_slot value rfl ?_ depicts
  change SlotTree.mk _ _ _ = _
  rw [same, shape]

/-- A parameter, which is read back between commas. -/
def paramSpec (limit : Nat) : PartSpec SlotTree Param SlotTree where
  item := parameter
  kinds := SlotTree.kinds
  tree := SlotTree.guarded
  depth := 0
  limit := limit

theorem readsAll_params {params : List SlotTree} {limit : Nat}
    (grammatical : ∀ param ∈ params,
      param.Grammatical ∧ isName param.name = true)
    (printable : params.all SlotTree.isPrintable = true) :
    (paramSpec limit).ReadsAll params (.symbol .closeParen :: rest) := by
  induction params with
  | nil => trivial
  | cons param others inductionHypothesis =>
      obtain ⟨⟨first, named⟩, later⟩ := List.forall_mem_cons.mp grammatical
      simp only [List.all_cons, Bool.and_eq_true] at printable
      refine ⟨fun state ready flat kinds _ => ?_,
        inductionHypothesis later printable.2⟩
      -- Behind a parameter stands the parenthesis or the next parameter.
      cases others with
      | nil =>
          exact gives_parameter first named printable.1 ready flat kinds
            (.of_head rfl rfl) (.of_head rfl rfl) (.wall rfl rest)
      | cons next others =>
          refine gives_parameter first named printable.1 ready flat kinds
            (.of_head rfl rfl) (.of_head rfl rfl) ?_
          rw [List.map_cons, followed, List.cons_append,
            joinedKinds_cons_append]
          · exact .entry next.name _
          · simp

theorem gives_parameters {params : List SlotTree}
    (grammatical : ∀ param ∈ params,
      param.Grammatical ∧ isName param.name = true)
    (printable : params.all SlotTree.isPrintable = true)
    (outside : state.Outside)
    (kinds : state.kinds = .symbol .openParen ::
      (joinedKinds (params.map SlotTree.kinds) ++
        .symbol .closeParen :: rest)) :
    Gives state parameters (Renders (params.map SlotTree.guarded) rest) := by
  refine .bind (.expectSymbol outside.ready kinds) ?_
  intro _ later reaches onward
  refine (paramSpec _).gives_listUntil (by decide) ?_
    (readsAll_params grammatical printable) reaches.ready
    (reaches.depth.trans outside.flat) onward (Nat.lt_succ_self _)
  intro param _
  exact ⟨_, rfl, ofWord_ne_symbol _ _, ofWord_ne_endOfFile _⟩

/-! ## Functions -/

theorem gives_skipTypeParameters (ready : state.Ready)
    (other : state.kinds.head? ≠ some (.symbol .less)) :
    Gives state skipTypeParameters fun _ later => later = state :=
  .leaveSymbol ready other (.pure ready rfl)

theorem gives_optionalBody {body : Option (List StmtTree)}
    (grammatical : ∀ statements ∈ body, StmtTree.AllGrammatical statements)
    (printable : body.all StmtTree.arePrintable = true)
    (outside : state.Outside)
    (kinds : state.kinds = FunctionTree.bodyKinds body ++ rest) :
    Gives state optionalBody
      (Renders (body.map StmtTree.allGuarded) rest) := by
  cases body with
  | none =>
      refine .inspect (.isFalse ?_ ?_)
      · rw [outside.ready.current_kind kinds]
        decide
      refine .bind (gives_optionalSemicolon outside.ready kinds) ?_
      intro _ later reaches left
      exact .pure reaches.ready ⟨.none, left⟩
  | some statements =>
      have inside : state.kinds = .symbol .openBrace ::
          (StmtTree.kindsOfAll statements ++ .symbol .closeBrace :: rest) := by
        rw [kinds]
        simp [FunctionTree.bodyKinds]
      refine .inspect (.isTrue ?_ ?_)
      · rw [outside.ready.current_kind inside]
        decide
      refine .bind (gives_block (grammatical statements rfl) printable outside
        inside) ?_
      rintro block later reaches ⟨depicts, left⟩
      exact .pure reaches.ready ⟨depicts.some, left⟩

theorem typeEnded_bodyKinds (body : Option (List StmtTree)) :
    TypeEnded (FunctionTree.bodyKinds body ++ rest) := by
  cases body <;> exact .of_head rfl rfl

/-- What stands behind the name of a function. -/
theorem gives_signature {tree : FunctionTree}
    {next : List Param → Option TypeExpr → Option Block → Parse Next}
    {after : Next → State → Prop} (grammatical : tree.Grammatical)
    (printable : tree.isPrintable = true) (outside : state.Outside)
    (kinds : .ofWord tree.name :: state.kinds = tree.kindsFromName ++ rest)
    (second : ∀ params returnType body later, state.Reaches later →
      returnType.map TypeExpr.shape = tree.returnType →
        later.arena.Depicts params (tree.params.map SlotTree.guarded) →
          Renders (tree.body.map StmtTree.allGuarded) rest body later →
            Gives later (next params returnType body) after) :
    Gives state
      (do
        skipTypeParameters
        let params ← parameters
        let returnType ← optionalType
        let body ← optionalBody
        next params returnType body) after := by
  have inside : state.kinds = .symbol .openParen ::
      (joinedKinds (tree.params.map SlotTree.kinds) ++ .symbol .closeParen ::
        (typedKinds tree.returnType ++
          (FunctionTree.bodyKinds tree.body ++ rest))) := by
    rw [(List.cons.inj kinds).2]
    simp
  simp only [FunctionTree.isPrintable, Bool.and_eq_true] at printable
  obtain ⟨⟨⟨-, params⟩, returnType⟩, body⟩ := printable
  refine .bind (gives_skipTypeParameters outside.ready
    (by rw [inside]; simp)) ?_
  rintro _ _ _ rfl
  refine .bind (gives_parameters grammatical.params params outside inside) ?_
  rintro paramsRead first reaches ⟨depicts, onward⟩
  refine .bind (gives_optionalType grammatical.returnType returnType
    reaches.ready onward (typeEnded_bodyKinds tree.body)) ?_
  rintro typeRead third further ⟨shape, remaining⟩
  have both := reaches.trans further
  refine .bind (gives_optionalBody grammatical.body body (outside.onward both)
    remaining) ?_
  rintro bodyRead last final renders
  have stored := depicts.extends (further.trans final).extended
    reaches.ready.closed
  exact second paramsRead typeRead bodyRead last (both.trans final) shape stored
    renders

theorem gives_functionDecl {tree : FunctionTree} {start : Span}
    (topLevel : tree.TopLevel) (printable : tree.isPrintable = true)
    (outside : state.Outside)
    (depicts : state.arena.Depicts decorators
      (tree.decorators.map DecoratorTree.guarded))
    (kinds : state.kinds =
      .keyword .functionWord :: (tree.kindsFromName ++ rest)) :
    Gives state
      (functionDecl decorators tree.isExported tree.isDeclared start)
      (Renders tree.guarded rest) := by
  unfold functionDecl
  dsimp only
  refine .bind (.expectKeyword outside.ready kinds) ?_
  intro _ first reaches onward
  refine .bind (gives_expectIdentifier reaches.ready topLevel.named onward) ?_
  rintro name second further ⟨named, remaining⟩
  have both := reaches.trans further
  refine gives_signature topLevel.grammatical printable (outside.onward both)
    (by rw [remaining]; rfl) ?_
  rintro params returnType body later onwards shape paramDepicts
    ⟨bodyDepicts, left⟩
  refine .isFalse ?_ ?_
  · intro declared
    obtain ⟨isDeclared, isSome⟩ := Bool.and_eq_true_iff.mp declared
    have bodied := bodyDepicts.shown
    rw [topLevel.declared isDeclared, Option.map_none] at bodied
    cases body with
    | none => cases isSome
    | some block => cases bodied
  have untilEnd := both.trans onwards
  have decorated := depicts.extends untilEnd.extended outside.ready.closed
  refine .bind (gives_externalName onwards.ready decorated
    ((externalOf?_guarded _).trans topLevel.external)) ?_
  rintro external last final ⟨rfl, same⟩
  have extended := final.extended
  have closed := onwards.ready.closed
  have shown := depicts_function (decorated.extends extended closed)
    (paramDepicts.extends extended closed) (bodyDepicts.extends extended closed)
    name tree.external tree.isExported tree.isDeclared returnType
  refine .spanFrom fun span => .pure final.ready ⟨?_, same.trans left⟩
  rw [FunctionTree.guarded, ← named, ← shape]
  exact shown span

/-! ## Classes -/

end Grammar

/-- What stands between the braces of a class. -/
inductive MemberTree where
  | field (tree : SlotTree)
  | method (tree : FunctionTree)

namespace MemberTree

def field? : MemberTree → Option SlotTree
  | field tree => some tree
  | method _ => none

def method? : MemberTree → Option FunctionTree
  | field _ => none
  | method tree => some tree

def kinds : MemberTree → List TokenKind
  | field tree => tree.kinds ++ [.symbol .semicolon]
  | method tree => tree.methodKinds

def guarded : MemberTree → MemberTree
  | field tree => field tree.guarded
  | method tree => method tree.guarded

def Grammatical : MemberTree → Prop
  | field tree => tree.Grammatical
  | method tree => tree.InClass

def isPrintable : MemberTree → Bool
  | field tree => tree.isPrintable
  | method tree => tree.isPrintable

end MemberTree

/-- Parts that some entries of a list have are depicted entry by entry. -/
theorem Arena.Depicts.filterMap_cons {Whole WholeTree Node Tree : Type}
    [Depicted Node Tree] {arena : Arena} {part : Whole → Option Node}
    {view : WholeTree → Option Tree} {whole : Whole} {wholes : List Whole}
    {tree : WholeTree} {trees : List WholeTree}
    (first : arena.Depicts (part whole) (view tree))
    (others : arena.Depicts (wholes.filterMap part) (trees.filterMap view)) :
    arena.Depicts ((whole :: wholes).filterMap part)
      ((tree :: trees).filterMap view) := by
  rw [List.filterMap_cons, List.filterMap_cons]
  obtain ⟨stored, shown⟩ := first
  rw [← shown]
  generalize part whole = found at stored
  cases found with
  | none => exact others
  | some node =>
      refine Depicts.cons ⟨fun point member => stored point ?_, rfl⟩ others
      simpa [Depicted.points] using member

/-- The tokens of the type that a class extends. -/
def baseKinds : Option TypeShape → List TokenKind
  | some base => .ofWord "extends" :: base.kinds
  | none => []

namespace Grammar

variable {state : State} {rest : List TokenKind} {start : Span}
  {decorators : List Decorator}

/-- What is known of a member of a class that is read back. -/
structure RendersMember (tree : MemberTree) (rest : List TokenKind)
    (member : Member) (later : State) : Prop where
  field : later.arena.Depicts member.field? tree.field?
  method : later.arena.Depicts member.method? tree.method?
  left : later.kinds = rest

theorem gives_memberModifiers {name : String} {mark : Symbol} {bound : Nat}
    (ready : state.Ready)
    (kinds : state.kinds = .ofWord name :: .symbol mark :: rest)
    (follows : followsMemberName (.symbol mark) = true) :
    Gives state (memberModifiers bound) fun isStatic later =>
      isStatic = false ∧ later = state := by
  cases bound with
  | zero => exact .pure ready ⟨rfl, rfl⟩
  | succ bound =>
      refine .inspect (.inspect (.isFalse ?_ (.pure ready ⟨rfl, rfl⟩)))
      simp [ready.lookAhead_one kinds, follows]

theorem gives_fieldFrom {tree : SlotTree} {name : Name}
    (grammatical : tree.Grammatical) (printable : tree.isPrintable = true)
    (outside : state.Outside) (named : name.text = tree.name)
    (kinds : .ofWord tree.name :: state.kinds =
      tree.kinds ++ .symbol .semicolon :: rest) :
    Gives state (fieldFrom start name)
      (Renders tree.guarded rest) := by
  have inside : state.kinds = .symbol .colon :: (tree.type.kinds ++
      (ExprTree.initializedKinds tree.initializer ++
        .symbol .semicolon :: rest)) := by
    rw [(List.cons.inj kinds).2]
    simp
  have notMark : state.kinds.head? ≠ some (.symbol .bang) ∧
      state.kinds.head? ≠ some (.symbol .question) := by
    rw [inside]
    exact ⟨nofun, nofun⟩
  have unmarked : Gives state (discard (eatSymbol .question))
      fun _ later => later = state := by
    change Gives state (eatSymbol .question >>= fun _ => pure ()) _
    exact .leaveSymbol outside.ready notMark.2 (.pure outside.ready rfl)
  refine .leaveSymbol outside.ready notMark.1 (.bind unmarked ?_)
  rintro _ _ _ rfl
  refine .eatSymbol outside.ready inside fun second reaches onward => ?_
  refine gives_typeAndInitializer grammatical printable reaches.ready
    (reaches.depth.trans outside.flat) onward (.of_head rfl rfl)
    (.of_head rfl rfl) (.wall rfl rest) ?_
  rintro type value later further shape ⟨depicts, semicolon⟩
  refine .bind (gives_optionalSemicolon further.ready semicolon) ?_
  intro _ last final left
  have stored := depicts.extends final.extended further.ready.closed
  refine .spanFrom fun span => .pure final.ready ⟨?_, left⟩
  refine depicts_slot value rfl ?_ stored
  change SlotTree.mk _ _ _ = _
  rw [named, shape]

theorem gives_methodFrom {tree : FunctionTree} {name : Name}
    (inClass : tree.InClass) (printable : tree.isPrintable = true)
    (outside : state.Outside) (named : name.text = tree.name)
    (depicts : state.arena.Depicts decorators
      (tree.decorators.map DecoratorTree.guarded))
    (kinds : .ofWord tree.name :: state.kinds = tree.kindsFromName ++ rest) :
    Gives state (methodFrom start decorators name)
      (Renders tree.guarded rest) := by
  unfold methodFrom
  refine gives_signature inClass.grammatical printable outside kinds ?_
  rintro params returnType body later reaches shape paramDepicts
    ⟨bodyDepicts, left⟩
  have decorated := depicts.extends reaches.extended outside.ready.closed
  have shown := depicts_function decorated paramDepicts bodyDepicts name none
    false false returnType
  refine .spanFrom fun span => .pure reaches.ready ⟨?_, left⟩
  rw [FunctionTree.guarded, ← named, ← shape, inClass.external,
    inClass.plain.1, inClass.plain.2]
  exact shown span

theorem gives_classMember {tree : MemberTree} (grammatical : tree.Grammatical)
    (printable : tree.isPrintable = true) (outside : state.Outside)
    (kinds : state.kinds = tree.kinds ++ rest) :
    Gives state classMember (RendersMember tree.guarded rest) := by
  refine .inspect ?_
  cases tree with
  | field tree =>
      have inside : state.kinds = ([] : List DecoratorTree).flatMap
          DecoratorTree.kinds ++ .ofWord tree.name :: .symbol .colon ::
            (tree.type.kinds ++ (ExprTree.initializedKinds tree.initializer ++
              .symbol .semicolon :: rest)) := by
        rw [kinds]
        simp [MemberTree.kinds, SlotTree.kinds]
      refine .bind (gives_decorators (by simp) rfl
        (by simp [ofWord_ne_symbol]) outside inside) ?_
      rintro decorators first reaches ⟨depicts, onward⟩
      refine .inspect (.bind (gives_memberModifiers reaches.ready onward rfl) ?_)
      rintro _ _ _ ⟨rfl, rfl⟩
      refine .bind (gives_expectPropertyName reaches.ready onward) ?_
      rintro name second further ⟨named, remaining⟩
      refine .inspect (.inspect (.isFalse ?_ ?_))
      · rw [further.ready.current_kind remaining]
        decide
      have behind : .ofWord tree.name :: second.kinds =
          tree.kinds ++ .symbol .semicolon :: rest := by
        rw [remaining]
        simp [SlotTree.kinds]
      refine .bind (gives_fieldFrom grammatical printable
        (outside.onward (reaches.trans further)) named behind) ?_
      rintro decl last final ⟨shown, left⟩
      exact .pure final.ready ⟨shown.some, .none, left⟩
  | method tree =>
      have inside : state.kinds = tree.decorators.flatMap DecoratorTree.kinds ++
          .ofWord tree.name :: .symbol .openParen ::
            (joinedKinds (tree.params.map SlotTree.kinds) ++
              .symbol .closeParen :: (typedKinds tree.returnType ++
                (FunctionTree.bodyKinds tree.body ++ rest))) := by
        rw [kinds]
        simp [MemberTree.kinds, FunctionTree.methodKinds,
          FunctionTree.kindsFromName]
      have both := printable
      simp only [MemberTree.isPrintable, FunctionTree.isPrintable,
        Bool.and_eq_true] at both
      refine .bind (gives_decorators grammatical.grammatical.decorators
        both.1.1.1 (by simp [ofWord_ne_symbol]) outside inside) ?_
      rintro decorators first reaches ⟨depicts, onward⟩
      refine .inspect (.bind (gives_memberModifiers reaches.ready onward rfl) ?_)
      rintro _ _ _ ⟨rfl, rfl⟩
      refine .bind (gives_expectPropertyName reaches.ready onward) ?_
      rintro name second further ⟨named, remaining⟩
      refine .inspect (.inspect (.isTrue ?_ ?_))
      · rw [further.ready.current_kind remaining]
        decide
      have stored := depicts.extends further.extended reaches.ready.closed
      have behind : .ofWord tree.name :: second.kinds =
          tree.kindsFromName ++ rest := by
        rw [remaining]
        simp [FunctionTree.kindsFromName]
      refine .bind (gives_methodFrom grammatical printable
        (outside.onward (reaches.trans further)) named stored behind) ?_
      rintro decl last final ⟨shown, left⟩
      exact .pure final.ready ⟨.none, shown.some, left⟩

/-- A member starts with a decorator or with its name. -/
theorem starts_memberKinds (tree : MemberTree) :
    ∃ kind ∈ tree.kinds.head?, kind = .symbol .atSign ∨
      ∃ name, kind = .ofWord name := by
  cases tree with
  | field tree => exact ⟨_, rfl, .inr ⟨_, rfl⟩⟩
  | method tree =>
      obtain ⟨name, decorators, _⟩ := tree
      cases decorators with
      | nil => exact ⟨_, rfl, .inr ⟨_, rfl⟩⟩
      | cons first others => exact ⟨_, rfl, .inl rfl⟩

/-- Members that are read back, one after another. -/
structure RendersMembers (trees : List MemberTree) (rest : List TokenKind)
    (members : List Member) (later : State) : Prop where
  fields : later.arena.Depicts (members.filterMap Member.field?)
    (trees.filterMap MemberTree.field?)
  methods : later.arena.Depicts (members.filterMap Member.method?)
    (trees.filterMap MemberTree.method?)
  left : later.kinds = rest

theorem gives_membersUntilBrace {trees : List MemberTree}
    (grammatical : ∀ tree ∈ trees, tree.Grammatical)
    (printable : trees.all MemberTree.isPrintable = true) {bound : Nat}
    {state : State} (outside : state.Outside)
    (kinds : state.kinds =
      trees.flatMap MemberTree.kinds ++ .symbol .closeBrace :: rest)
    (more : trees.length < bound) :
    Gives state (membersUntilBrace bound)
      (RendersMembers (trees.map MemberTree.guarded)
        (.symbol .closeBrace :: rest)) := by
  induction trees generalizing bound state with
  | nil =>
      obtain ⟨bound, rfl⟩ := Nat.exists_eq_succ_of_ne_zero
        (Nat.ne_zero_of_lt more)
      refine .inspect (.inspect (.isTrue ?_ ?_))
      · rw [outside.ready.current_kind kinds]
        decide
      · exact .pure outside.ready ⟨.nil, .nil, kinds⟩
  | cons tree others inductionHypothesis =>
      obtain ⟨bound, rfl⟩ := Nat.exists_eq_succ_of_ne_zero
        (Nat.ne_zero_of_lt more)
      obtain ⟨first, later⟩ := List.forall_mem_cons.mp grammatical
      simp only [List.all_cons, Bool.and_eq_true] at printable
      rw [List.flatMap_cons, List.append_assoc] at kinds
      obtain ⟨kind, head, starts⟩ := starts_memberKinds tree
      obtain ⟨front, shape⟩ := List.head?_eq_some_iff.mp head
      have current : state.current.kind = kind := by
        rw [State.current_eq outside.ready, kinds, shape]
        rfl
      have plain (mark : Symbol) (other : mark ≠ .atSign) :
          kind ≠ .symbol mark := by
        rcases starts with rfl | ⟨name, rfl⟩
        · simpa [eq_comm] using other
        · exact ofWord_ne_symbol name mark
      have notEnd : kind ≠ .endOfFile := by
        rcases starts with rfl | ⟨name, rfl⟩
        · nofun
        · exact ofWord_ne_endOfFile name
      refine .inspect (.inspect (.isFalse ?_ (.leaveSymbol outside.ready ?_
        (.inspect (.isFalse ?_ ?_)))))
      · have other := mt isSymbol_iff.mp (plain .closeBrace nofun)
        have further := mt isEndOfFile_iff.mp notEnd
        simp [current, other, further]
      · rw [kinds, shape]
        simpa using plain .semicolon nofun
      · simp [outside.room]
      refine .bind (Gives.attempt (gives_classMember first printable.1 outside
        kinds)) ?_
      rintro _ second reaches ⟨member, rfl, read⟩
      refine .bind (inductionHypothesis later printable.2
        (outside.onward reaches) read.left (Nat.lt_of_succ_lt_succ more)) ?_
      intro members last further onward
      have fields := read.field.extends further.extended reaches.ready.closed
      have methods := read.method.extends further.extended reaches.ready.closed
      exact .pure further.ready ⟨fields.filterMap_cons onward.fields,
        methods.filterMap_cons onward.methods, onward.left⟩

theorem gives_optionalBase {base : Option TypeShape}
    (grammatical : ∀ type ∈ base, type.Grammatical)
    (printable : base.all TypeShape.isPrintable = true) (ready : state.Ready)
    (kinds : state.kinds = baseKinds base ++
      .symbol .openBrace :: rest) :
    Gives state optionalBase fun result later =>
      result.map TypeExpr.shape = base ∧
        later.kinds = .symbol .openBrace :: rest := by
  cases base with
  | none => exact .leaveIdentifier ready kinds (.pure ready ⟨rfl, kinds⟩)
  | some base =>
      refine .eatIdentifier ready kinds fun first reaches onward => ?_
      refine .bind (gives_typeExpr (grammatical base rfl) printable reaches.ready
        onward (base.endsBefore_of_symbol (by decide) rest)) ?_
      rintro type last further ⟨rfl, left⟩
      exact .pure further.ready ⟨rfl, left⟩

/-- The members of a class as they are printed: its fields and then its
methods. -/
def membersOf (fields : List SlotTree) (methods : List FunctionTree) :
    List MemberTree :=
  fields.map .field ++ methods.map .method

theorem kinds_membersOf (fields : List SlotTree) (methods : List FunctionTree) :
    (membersOf fields methods).flatMap MemberTree.kinds =
      fields.flatMap (fun field => field.kinds ++ [.symbol .semicolon]) ++
        methods.flatMap FunctionTree.methodKinds := by
  rw [membersOf, List.flatMap_append, List.flatMap_map, List.flatMap_map]
  rfl

theorem filterMap_field?_membersOf (fields : List SlotTree)
    (methods : List FunctionTree) :
    (membersOf fields methods).filterMap MemberTree.field? = fields := by
  have methodsDropped : MemberTree.field? ∘ MemberTree.method =
      fun _ => none := rfl
  have fieldsKept : MemberTree.field? ∘ MemberTree.field = some := rfl
  rw [membersOf, List.filterMap_append, List.filterMap_map,
    List.filterMap_map, methodsDropped, fieldsKept, List.filterMap_some]
  simp

theorem filterMap_method?_membersOf (fields : List SlotTree)
    (methods : List FunctionTree) :
    (membersOf fields methods).filterMap MemberTree.method? = methods := by
  have methodsKept : MemberTree.method? ∘ MemberTree.method = some := rfl
  have fieldsDropped : MemberTree.method? ∘ MemberTree.field =
      fun _ => none := rfl
  rw [membersOf, List.filterMap_append, List.filterMap_map,
    List.filterMap_map, methodsKept, fieldsDropped, List.filterMap_some]
  simp

theorem map_guarded_membersOf (fields : List SlotTree)
    (methods : List FunctionTree) :
    (membersOf fields methods).map MemberTree.guarded =
      membersOf (fields.map SlotTree.guarded)
        (methods.map FunctionTree.guarded) := by
  simp [membersOf, MemberTree.guarded, Function.comp_def]

/-- A class behind its decorators. -/
theorem gives_classDecl {name : String} {trees : List DecoratorTree}
    {isExported : Bool} {base : Option TypeShape} {fields : List SlotTree}
    {methods : List FunctionTree}
    (grammatical :
      (ItemTree.class name trees isExported base fields methods).Grammatical)
    (printable :
      (ItemTree.class name trees isExported base fields methods).isPrintable =
        true)
    (outside : state.Outside)
    (depicts : state.arena.Depicts decorators
      (trees.map DecoratorTree.guarded))
    (kinds : state.kinds = .keyword .classWord :: .ofWord name ::
      (baseKinds base ++ .symbol .openBrace ::
        ((membersOf fields methods).flatMap MemberTree.kinds ++
          .symbol .closeBrace :: rest))) :
    Gives state (classDecl decorators isExported start) fun decl later =>
      later.arena.Depicts (Item.class decl)
        (ItemTree.class name trees isExported base fields methods).guarded ∧
          later.kinds = rest := by
  obtain ⟨named, -, baseFits, fieldsFit, methodsFit⟩ := grammatical
  simp only [ItemTree.isPrintable, Bool.and_eq_true] at printable
  obtain ⟨⟨⟨-, basePrints⟩, fieldsPrint⟩, methodsPrint⟩ := printable
  refine .bind (.expectKeyword outside.ready kinds) ?_
  intro _ first reaches onward
  refine .bind (gives_expectIdentifier reaches.ready named onward) ?_
  rintro nameRead second further ⟨rfl, remaining⟩
  refine .bind (gives_skipTypeParameters further.ready ?_) ?_
  · rw [remaining]
    cases base <;> nofun
  rintro _ _ _ rfl
  refine .bind (gives_optionalBase baseFits basePrints further.ready remaining)
    ?_
  rintro baseRead third onwards ⟨rfl, brace⟩
  refine .leaveIdentifier onwards.ready brace ?_
  refine .bind (.expectSymbol onwards.ready brace) ?_
  intro _ fourth next inside
  have untilBody := reaches.trans (further.trans (onwards.trans next))
  refine .inspect (.bind (gives_membersUntilBrace ?_ ?_
    (outside.onward untilBody) inside ?_) ?_)
  · intro tree member
    rcases List.mem_append.mp member with inFields | inMethods
    · obtain ⟨field, isField, rfl⟩ := List.mem_map.mp inFields
      exact fieldsFit field isField
    · obtain ⟨method, isMethod, rfl⟩ := List.mem_map.mp inMethods
      exact methodsFit method isMethod
  · rw [membersOf, List.all_append, List.all_map, List.all_map,
      Bool.and_eq_true]
    exact ⟨fieldsPrint, methodsPrint⟩
  · have short := length_le_flatMap MemberTree.kinds (membersOf fields methods)
      fun tree _ => by
        obtain ⟨kind, head, _⟩ := starts_memberKinds tree
        exact List.ne_nil_of_mem (List.mem_of_mem_head? head)
    rw [← State.kinds_length, inside, List.length_append]
    omega
  intro members fifth final read
  rw [map_guarded_membersOf] at read
  obtain ⟨fieldsDepict, methodsDepict, closing⟩ := read
  rw [filterMap_field?_membersOf] at fieldsDepict
  rw [filterMap_method?_membersOf] at methodsDepict
  refine .bind (.expectSymbol final.ready closing) ?_
  intro _ last ended left
  have stored := depicts.extends (untilBody.trans (final.trans ended)).extended
    outside.ready.closed
  have fieldsStored := fieldsDepict.extends ended.extended final.ready.closed
  have methodsStored := methodsDepict.extends ended.extended final.ready.closed
  exact .spanFrom fun span => .pure ended.ready
    ⟨depicts_class stored fieldsStored methodsStored nameRead isExported
      baseRead span, left⟩

end Grammar

end PluginSurface
