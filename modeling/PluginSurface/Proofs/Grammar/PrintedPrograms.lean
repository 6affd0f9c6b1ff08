import PluginSurface.Proofs.Grammar.PrintedDeclarations

/-!
# Programs as they are printed

The tokens of a printable program are read as that program, item by item.
-/

namespace PluginSurface

open Grammar

/-- The tokens of the source that an export list takes its names from. -/
def sourceKinds : Option String → List TokenKind
  | some source => [.keyword .fromWord, .string source]
  | none => []

namespace Grammar

variable {Next : Type} {state : State} {rest : List TokenKind} {start : Span}
  {decorators : List Decorator}

/-! ## Variables, exports and imports -/

/-- A variable behind its decorators. -/
theorem gives_variableDecl {kind : BindingKind} {name : String}
    {type : Option TypeShape} {value : Option ExprTree} {isExported : Bool}
    {trees : List DecoratorTree}
    (grammatical :
      (ItemTree.variable kind name type value isExported trees).Grammatical)
    (printable :
      (ItemTree.variable kind name type value isExported trees).isPrintable =
        true)
    (outside : state.Outside)
    (depicts : state.arena.Depicts decorators
      (trees.map DecoratorTree.guarded))
    (kinds : state.kinds = .keyword kind.keyword :: .ofWord name ::
      (typedKinds type ++
        (ExprTree.initializedKinds value ++ .symbol .semicolon :: rest))) :
    Gives state (variableDecl kind decorators isExported start)
      fun decl later => later.arena.Depicts (Item.variable decl)
        (ItemTree.variable kind name type value isExported trees).guarded ∧
          later.kinds = rest := by
  obtain ⟨named, typeFits, standalone, -⟩ := grammatical
  simp only [ItemTree.isPrintable, Bool.and_eq_true] at printable
  unfold variableDecl
  refine .advance outside.ready kinds fun first reaches onward => ?_
  refine gives_binding named typeFits standalone printable.1.1 printable.1.2
    (outside.onward reaches) onward ?_
  rintro nameRead typeRead valueRead last further rfl rfl ⟨valueDepicts, left⟩
  have stored := depicts.extends (reaches.trans further).extended
    outside.ready.closed
  exact .spanFrom fun span => .pure further.ready
    ⟨depicts_variable stored valueDepicts kind nameRead typeRead isExported
      span, left⟩

/-- A name and the one it is renamed to, in front of what renames nothing. -/
theorem gives_renamed {name : String} {newName : Option String}
    {next : Name → Option Name → Parse Next} {after : Next → State → Prop}
    (ready : state.Ready) (named : isName name = true)
    (newNamed : ∀ text ∈ newName, isName text = true)
    (kinds : state.kinds = ItemTree.renamedKinds name newName ++ rest)
    (plain : rest.head? ≠ some (.keyword .asWord))
    (second : ∀ nameRead newNameRead later, state.Reaches later →
      nameRead.text = name → newNameRead.map Name.text = newName →
        later.kinds = rest → Gives later (next nameRead newNameRead) after) :
    Gives state
      (do
        let name ← expectIdentifier
        let newName ← optionalRename
        next name newName) after := by
  cases newName with
  | none =>
      refine .bind (gives_expectIdentifier ready named kinds) ?_
      rintro nameRead later reaches ⟨same, left⟩
      have stays : Gives later optionalRename fun result last =>
          result = none ∧ last.kinds = rest :=
        .leaveKeyword reaches.ready (left ▸ plain)
          (.pure reaches.ready ⟨rfl, left⟩)
      refine .bind stays ?_
      rintro _ last further ⟨rfl, left⟩
      exact second nameRead none last (reaches.trans further) same rfl left
  | some newName =>
      refine .bind (gives_expectIdentifier ready named kinds) ?_
      rintro nameRead later reaches ⟨same, onward⟩
      have renames : Gives later optionalRename fun result last =>
          result.map Name.text = some newName ∧ last.kinds = rest := by
        refine .eatKeyword reaches.ready onward fun third further others => ?_
        refine .bind (gives_expectIdentifier further.ready
          (newNamed newName rfl) others) ?_
        rintro newNameRead last final ⟨rfl, left⟩
        exact .pure final.ready ⟨rfl, left⟩
      refine .bind renames ?_
      rintro newNameRead last further ⟨shape, left⟩
      exact second nameRead newNameRead last (reaches.trans further) same shape
        left

theorem head?_renamedKinds (name : String) (newName : Option String) :
    (ItemTree.renamedKinds name newName).head? = some (.ofWord name) := by
  cases newName <;> rfl

/-- Names between braces, each with the one it may be renamed to. -/
theorem gives_renamedList {Part Node : Type} [Depicted Node Part]
    {item : Parse Node} {parts : List Part}
    (view : Part → String × Option String)
    (reads : ∀ part ∈ parts, ∀ ⦃state : State⦄ ⦃rest : List TokenKind⦄,
      state.Ready → rest.head? ≠ some (.keyword .asWord) →
        state.kinds = ItemTree.renamedKinds (view part).1 (view part).2 ++ rest →
          Gives state item (Renders part rest))
    (ready : state.Ready)
    (kinds : state.kinds = joinedKinds (parts.map fun part =>
      ItemTree.renamedKinds (view part).1 (view part).2) ++
        .symbol .closeBrace :: rest) :
    Gives state (listUntil .closeBrace item) (Renders parts rest) := by
  let spec : PartSpec Part Node Part :=
    ⟨item, fun part => ItemTree.renamedKinds (view part).1 (view part).2, id,
      state.depth, state.kinds.length + 1⟩
  have opens (part : Part) (_ : part ∈ parts) :
      spec.Opens .closeBrace part :=
    ⟨.ofWord (view part).1, head?_renamedKinds _ _, ofWord_ne_symbol _ _,
      ofWord_ne_endOfFile _⟩
  have readsAll : spec.ReadsAll parts (.symbol .closeBrace :: rest) := by
    refine PartSpec.readsAll_of_forall spec fun part member after behind => ?_
    intro state ready _ kinds _
    refine reads part member ready ?_ kinds
    rcases behind with head | head <;> rw [head] <;> nofun
  refine (spec.gives_listUntil (by decide) opens readsAll ready rfl kinds
    (Nat.lt_succ_self _)).imp ?_
  rintro nodes later _ ⟨depicts, left⟩
  rw [List.map_id] at depicts
  exact ⟨depicts, left⟩

theorem gives_exportMembers {members : List (String × Option String)}
    (named : ∀ member ∈ members, isName member.1 = true ∧
      ∀ newName ∈ member.2, isName newName = true)
    (ready : state.Ready)
    (kinds : state.kinds = joinedKinds (members.map fun member =>
      ItemTree.renamedKinds member.1 member.2) ++
        .symbol .closeBrace :: rest) :
    Gives state (listUntil .closeBrace exportMember)
      (Renders members rest) := by
  refine gives_renamedList id
    (fun member found state after ready plain kinds => ?_) ready kinds
  obtain ⟨first, second⟩ := named member found
  refine gives_renamed ready first second kinds plain ?_
  rintro nameRead newNameRead later reaches same shape left
  exact .pure reaches.ready ⟨⟨nofun, Prod.ext same shape⟩, left⟩

theorem gives_importMembers {members : List (String × String)}
    (named : ∀ member ∈ members, isName member.1 = true ∧
      isName member.2 = true)
    (ready : state.Ready)
    (kinds : state.kinds = joinedKinds (members.map fun member =>
      ItemTree.importMemberKinds member.1 member.2) ++
        .symbol .closeBrace :: rest) :
    Gives state (listUntil .closeBrace importMember)
      (Renders members rest) := by
  let view (member : String × String) : String × Option String :=
    (member.1, if member.1 = member.2 then none else some member.2)
  refine gives_renamedList view
    (fun member found state after ready plain kinds => ?_) ready kinds
  obtain ⟨importedName, localName⟩ := member
  obtain ⟨first, second⟩ := named _ found
  refine gives_renamed ready first ?_ kinds plain ?_
  · intro newName isNew
    simp only [view, Option.mem_def, Option.ite_none_left_eq_some] at isNew
    obtain ⟨-, same⟩ := isNew
    exact Option.some.inj same ▸ second
  rintro nameRead newNameRead later reaches rfl shape left
  refine .pure reaches.ready ⟨⟨nofun, Prod.ext rfl ?_⟩, left⟩
  change (newNameRead.getD nameRead).text = localName
  simp only [view] at shape
  split at shape
  · next same =>
      cases newNameRead with
      | none => exact same
      | some newName => cases shape
  · cases newNameRead with
    | none => cases shape
    | some newName => exact Option.some.inj shape

theorem gives_exportDecl {members : List (String × Option String)}
    {source : Option String}
    (grammatical : (ItemTree.exportList members source).Grammatical)
    (outside : state.Outside)
    (kinds : .keyword .exportWord :: state.kinds =
      (ItemTree.exportList members source).kinds ++ rest) :
    Gives state (exportDecl start) fun decl later =>
      later.arena.Depicts (Item.exportList decl)
        (ItemTree.exportList members source) ∧ later.kinds = rest := by
  have inside : state.kinds = .symbol .openBrace ::
      (joinedKinds (members.map fun member =>
        ItemTree.renamedKinds member.1 member.2) ++
          .symbol .closeBrace :: (sourceKinds source ++
            .symbol .semicolon :: rest)) := by
    rw [(List.cons.inj kinds).2]
    cases source <;> simp [sourceKinds]
  unfold exportDecl
  refine .bind (.expectSymbol outside.ready inside) ?_
  intro _ first reaches onward
  refine .bind (gives_exportMembers grammatical reaches.ready onward) ?_
  rintro membersRead second further ⟨depicts, remaining⟩
  have ended {later : State} (source : Option String)
      (reaches : second.Reaches later)
      (semicolon : later.kinds = .symbol .semicolon :: rest) :
      Gives later
        (do
          optionalSemicolon
          return (⟨membersRead, source, ← spanFrom start⟩ : ExportDecl))
        fun decl last => last.arena.Depicts (Item.exportList decl)
          (ItemTree.exportList members source) ∧ last.kinds = rest := by
    refine .bind (gives_optionalSemicolon reaches.ready semicolon) ?_
    intro _ last final left
    refine .spanFrom fun span => .pure final.ready ⟨⟨nofun, ?_⟩, left⟩
    exact congrArg (ItemTree.exportList · source) depicts.shown
  cases source with
  | none =>
      refine .leaveKeyword further.ready (by rw [remaining]; nofun) ?_
      exact .continued rfl further.ready.reaches
        (ended none further.ready.reaches remaining)
  | some source =>
      refine .eatKeyword further.ready remaining fun third onwards isSource => ?_
      refine .bind (gives_expectString onwards.ready isSource) ?_
      rintro _ fourth next ⟨rfl, semicolon⟩
      exact .continued rfl next.ready.reaches
        (ended _ (onwards.trans next) semicolon)

/-- What an import names, up to the word before its source. -/
theorem gives_importNames {members : List (String × String)}
    {namespaceName : Option String} {source : String}
    (grammatical :
      (ItemTree.importList members namespaceName source).Grammatical)
    (ready : state.Ready)
    (kinds : state.kinds = ItemTree.importNamesKinds members namespaceName ++
      .string source :: rest) :
    Gives state importNames fun names later =>
      names.1.map Name.text = namespaceName ∧
        later.arena.Depicts names.2 members ∧
          later.kinds = keywordIf (names.1.isSome || !names.2.isEmpty) .fromWord ++
            .string source :: rest := by
  obtain ⟨named, spaceNamed⟩ := grammatical
  cases namespaceName with
  | some name =>
      obtain ⟨isNamed, rfl⟩ := spaceNamed name rfl
      refine .current ready kinds ?_
      refine .advance ready kinds fun first reaches onward => ?_
      refine .bind (.expectKeyword reaches.ready onward) ?_
      intro _ second further remaining
      refine .bind (gives_expectIdentifier further.ready isNamed remaining) ?_
      rintro nameRead last final ⟨rfl, left⟩
      exact .pure final.ready ⟨rfl, .nil, left⟩
  | none =>
      cases members with
      | nil =>
          exact .current ready kinds (.pure ready ⟨rfl, .nil, kinds⟩)
      | cons member others =>
          have inside : state.kinds = .symbol .openBrace ::
              (joinedKinds ((member :: others).map fun member =>
                ItemTree.importMemberKinds member.1 member.2) ++
                  .symbol .closeBrace ::
                    .keyword .fromWord :: .string source :: rest) := by
            rw [kinds]
            simp [ItemTree.importNamesKinds]
          refine .current ready inside ?_
          refine .bind (.expectSymbol ready inside) ?_
          intro _ first reaches onward
          refine .bind (gives_importMembers named reaches.ready onward) ?_
          rintro membersRead last further ⟨depicts, left⟩
          refine .pure further.ready ⟨rfl, depicts, ?_⟩
          cases membersRead with
          | nil => cases depicts.shown
          | cons first others => exact left

theorem gives_importDecl {members : List (String × String)}
    {namespaceName : Option String} {source : String}
    (grammatical :
      (ItemTree.importList members namespaceName source).Grammatical)
    (outside : state.Outside)
    (kinds : state.kinds =
      (ItemTree.importList members namespaceName source).kinds ++ rest) :
    Gives state (importDecl start) fun decl later =>
      later.arena.Depicts (Item.importList decl)
        (ItemTree.importList members namespaceName source) ∧
          later.kinds = rest := by
  have inside : state.kinds = .keyword .importWord ::
      (ItemTree.importNamesKinds members namespaceName ++
        .string source :: .symbol .semicolon :: rest) := by
    rw [kinds]
    simp [ItemTree.kinds]
  refine .bind (.expectKeyword outside.ready inside) ?_
  intro _ first reaches onward
  refine .bind (gives_importNames grammatical reaches.ready onward) ?_
  rintro ⟨nameRead, membersRead⟩ second further ⟨rfl, depicts, remaining⟩
  have sourceEnd {later : State} (reaches : second.Reaches later)
      (isSource : later.kinds = .string source :: .symbol .semicolon :: rest) :
      Gives later
        (do
          let source ← expectString
          optionalSemicolon
          return (⟨membersRead, nameRead, source, ← spanFrom start⟩ :
            ImportDecl))
        fun decl last => last.arena.Depicts (Item.importList decl)
          (ItemTree.importList members (nameRead.map Name.text) source) ∧
            last.kinds = rest := by
    refine .bind (gives_expectString reaches.ready isSource) ?_
    rintro _ third onwards ⟨rfl, semicolon⟩
    refine .bind (gives_optionalSemicolon onwards.ready semicolon) ?_
    intro _ last final left
    refine .spanFrom fun span => .pure final.ready ⟨⟨nofun, ?_⟩, left⟩
    exact congrArg (ItemTree.importList · (nameRead.map Name.text) _)
      depicts.shown
  refine .inspect ?_
  cases needed : nameRead.isSome || !membersRead.isEmpty with
  | true =>
      rw [needed] at remaining
      refine .isTrue (by simp) ?_
      refine .bind (.expectKeyword further.ready remaining) ?_
      intro _ third onwards isSource
      exact sourceEnd onwards isSource
  | false =>
      rw [needed] at remaining
      refine .isFalse ?_ (sourceEnd further.ready.reaches remaining)
      rw [further.ready.current_kind remaining]
      simp [TokenKind.isKeyword]

/-! ## Items -/

/-- The decorators and the words in front of a declaration. -/
theorem gives_introduction {trees : List DecoratorTree}
    {isExported isDeclared : Bool} {word : Keyword}
    {holds : Item → State → Prop}
    (grammatical : ∀ tree ∈ trees, tree.Grammatical)
    (printable : trees.all DecoratorTree.isPrintable = true)
    (outside : state.Outside)
    (kinds : state.kinds = trees.flatMap DecoratorTree.kinds ++
      (keywordIf isExported .exportWord ++
        (keywordIf isDeclared .declareWord ++ .keyword word :: rest)))
    (plain : word ≠ .exportWord ∧ word ≠ .declareWord)
    (second : ∀ decorators start later, state.Reaches later →
      later.arena.Depicts decorators (trees.map DecoratorTree.guarded) →
        later.kinds = .keyword word :: rest →
          Gives later (declarationItem decorators isExported isDeclared start)
            holds) :
    Gives state item holds := by
  refine .inspect (.bind (gives_decorators grammatical printable ?_ outside kinds)
    ?_)
  · cases isExported <;> cases isDeclared <;> simp [keywordIf]
  rintro decorators first reaches ⟨depicts, onward⟩
  have goesOn {later : State} (further : first.Reaches later)
      (remaining : later.kinds =
        keywordIf isDeclared .declareWord ++ .keyword word :: rest) :
      Gives later
        (do
          if isExported && (← atSymbol .openBrace) then
            let exportList ← exportDecl state.current.span
            return .exportList exportList
          else
            let isDeclared ← eatKeyword .declareWord
            declarationItem decorators isExported isDeclared
              state.current.span) holds := by
    refine .inspect (.isFalse ?_ ?_)
    · cases isDeclared <;>
        simp [further.ready.current_kind remaining, TokenKind.isSymbol]
    have both := reaches.trans further
    have stored := depicts.extends further.extended reaches.ready.closed
    cases isDeclared with
    | true =>
        refine .eatKeyword further.ready remaining fun last onwards left => ?_
        exact second _ _ last (both.trans onwards)
          (stored.extends onwards.extended further.ready.closed) left
    | false =>
        refine .leaveKeyword further.ready ?_
          (second _ _ later both stored remaining)
        rw [remaining]
        simpa [keywordIf] using plain.2
  cases isExported with
  | true =>
      exact .eatKeyword reaches.ready onward fun later further remaining =>
        goesOn further remaining
  | false =>
      refine .leaveKeyword reaches.ready ?_ (goesOn reaches.ready.reaches onward)
      rw [onward]
      cases isDeclared
      · simpa [keywordIf] using plain.1
      · simp [keywordIf]

theorem keywordIf_false (word : Keyword) : keywordIf false word = [] :=
  rfl

theorem gives_item {tree : ItemTree} (grammatical : tree.Grammatical)
    (printable : tree.isPrintable = true) (outside : state.Outside)
    (kinds : state.kinds = tree.kinds ++ rest) :
    Gives state item (Renders tree.guarded rest) := by
  cases tree with
  | function tree =>
      have inside : state.kinds = tree.decorators.flatMap DecoratorTree.kinds ++
          (keywordIf tree.isExported .exportWord ++
            (keywordIf tree.isDeclared .declareWord ++
              .keyword .functionWord :: (tree.kindsFromName ++ rest))) := by
        rw [kinds]
        simp [ItemTree.kinds, FunctionTree.kinds]
      have both := printable
      simp only [ItemTree.isPrintable, FunctionTree.isPrintable,
        Bool.and_eq_true] at both
      refine gives_introduction grammatical.grammatical.decorators both.1.1.1
        outside inside (by decide) ?_
      intro decorators start later reaches depicts onward
      refine .current reaches.ready onward ?_
      refine .bind (gives_functionDecl grammatical printable
        (outside.onward reaches) depicts onward) ?_
      rintro decl last further ⟨shown, left⟩
      exact .pure further.ready
        ⟨⟨shown.stored, congrArg ItemTree.function shown.shown⟩, left⟩
  | «class» name trees isExported base fields methods =>
      have inside : state.kinds = trees.flatMap DecoratorTree.kinds ++
          (keywordIf isExported .exportWord ++
            (keywordIf false .declareWord ++ .keyword .classWord ::
              .ofWord name :: (baseKinds base ++ .symbol .openBrace ::
                ((membersOf fields methods).flatMap MemberTree.kinds ++
                  .symbol .closeBrace :: rest)))) := by
        rw [kinds, kinds_membersOf, keywordIf_false]
        cases base <;> simp [ItemTree.kinds, baseKinds]
      have decorated := printable
      simp only [ItemTree.isPrintable, Bool.and_eq_true] at decorated
      refine gives_introduction grammatical.2.1 decorated.1.1.1 outside
        inside (by decide) ?_
      intro decorators start later reaches depicts onward
      refine .current reaches.ready onward ?_
      refine .bind (gives_classDecl grammatical printable
        (outside.onward reaches) depicts onward) ?_
      rintro decl last further ⟨shown, left⟩
      exact .pure further.ready ⟨shown, left⟩
  | exportList members source =>
      have noDecorators : state.kinds = ([] : List DecoratorTree).flatMap
          DecoratorTree.kinds ++
            ((ItemTree.exportList members source).kinds ++ rest) := kinds
      have plain (mark : Symbol) :
          ((ItemTree.exportList members source).kinds ++ rest).head? ≠
            some (.symbol mark) := by
        simp [ItemTree.kinds]
      refine .inspect (.bind (gives_decorators (by simp) rfl
        ⟨plain _, plain _⟩ outside noDecorators) ?_)
      rintro decorators first reaches ⟨-, onward⟩
      refine .eatKeyword reaches.ready onward fun second further remaining => ?_
      refine .inspect (.isTrue ?_ ?_)
      · rw [further.ready.current_kind remaining]
        rfl
      refine .bind (gives_exportDecl grammatical
        (outside.onward (reaches.trans further)) (by rw [remaining]; rfl)) ?_
      rintro decl last final ⟨shown, left⟩
      exact .pure final.ready ⟨shown, left⟩
  | importList members namespaceName source =>
      have inside : state.kinds = ([] : List DecoratorTree).flatMap
          DecoratorTree.kinds ++ (keywordIf false .exportWord ++
            (keywordIf false .declareWord ++
              ((ItemTree.importList members namespaceName source).kinds ++
                rest))) := kinds
      refine gives_introduction (by simp) rfl outside inside (by decide) ?_
      intro decorators start later reaches _ onward
      refine .current reaches.ready onward (.isFalse (by simp) ?_)
      refine .bind (gives_importDecl grammatical (outside.onward reaches) onward)
        ?_
      rintro decl last further ⟨shown, left⟩
      exact .pure further.ready ⟨shown, left⟩
  | «variable» kind name type value isExported trees =>
      have inside : state.kinds = trees.flatMap DecoratorTree.kinds ++
          (keywordIf isExported .exportWord ++
            (keywordIf false .declareWord ++ .keyword kind.keyword ::
              .ofWord name :: (typedKinds type ++
                (ExprTree.initializedKinds value ++
                  .symbol .semicolon :: rest)))) := by
        rw [kinds, keywordIf_false]
        simp [ItemTree.kinds, bindingKinds]
      have decorated := printable
      simp only [ItemTree.isPrintable, Bool.and_eq_true] at decorated
      refine gives_introduction grammatical.2.2.2 decorated.2 outside inside
        (by cases kind <;> decide) ?_
      intro decorators start later reaches depicts onward
      refine .current reaches.ready onward ?_
      cases kind <;>
        exact .bind (gives_variableDecl grammatical printable
          (outside.onward reaches) depicts onward) fun _ _ further known =>
            .pure further.ready known

/-- An item starts with a decorator or with a reserved word. -/
theorem starts_itemKinds (tree : ItemTree) :
    ∃ kind ∈ tree.kinds.head?, kind = .symbol .atSign ∨
      ∃ word, kind = .keyword word := by
  cases tree with
  | function tree =>
      obtain ⟨name, decorators, external, isExported, isDeclared, _⟩ := tree
      cases decorators with
      | nil =>
          cases isExported <;> cases isDeclared <;>
            exact ⟨_, rfl, .inr ⟨_, rfl⟩⟩
      | cons first others => exact ⟨_, rfl, .inl rfl⟩
  | «class» name decorators isExported =>
      cases decorators with
      | nil => cases isExported <;> exact ⟨_, rfl, .inr ⟨_, rfl⟩⟩
      | cons first others => exact ⟨_, rfl, .inl rfl⟩
  | exportList => exact ⟨_, rfl, .inr ⟨_, rfl⟩⟩
  | importList => exact ⟨_, rfl, .inr ⟨_, rfl⟩⟩
  | «variable» kind name type value isExported decorators =>
      cases decorators with
      | nil => cases isExported <;> exact ⟨_, rfl, .inr ⟨_, rfl⟩⟩
      | cons first others => exact ⟨_, rfl, .inl rfl⟩

theorem gives_itemsToEnd {trees : List ItemTree}
    (grammatical : ∀ tree ∈ trees, tree.Grammatical)
    (printable : trees.all ItemTree.isPrintable = true) {bound : Nat}
    {state : State} (outside : state.Outside)
    (kinds : state.kinds = trees.flatMap ItemTree.kinds ++ [.endOfFile])
    (more : trees.length < bound) :
    Gives state (itemsToEnd bound) fun items later =>
      later.arena.Depicts items (trees.map ItemTree.guarded) := by
  induction trees generalizing bound state with
  | nil =>
      obtain ⟨bound, rfl⟩ := Nat.exists_eq_succ_of_ne_zero
        (Nat.ne_zero_of_lt more)
      refine .inspect (.inspect (.isTrue ?_ (.pure outside.ready .nil)))
      rw [outside.ready.current_kind kinds]
      rfl
  | cons tree others inductionHypothesis =>
      obtain ⟨bound, rfl⟩ := Nat.exists_eq_succ_of_ne_zero
        (Nat.ne_zero_of_lt more)
      obtain ⟨first, later⟩ := List.forall_mem_cons.mp grammatical
      simp only [List.all_cons, Bool.and_eq_true] at printable
      rw [List.flatMap_cons, List.append_assoc] at kinds
      obtain ⟨kind, head, starts⟩ := starts_itemKinds tree
      obtain ⟨front, shape⟩ := List.head?_eq_some_iff.mp head
      have current : state.current.kind = kind := by
        rw [State.current_eq outside.ready, kinds, shape]
        rfl
      have plain : kind ≠ .symbol .semicolon ∧ kind ≠ .endOfFile := by
        rcases starts with rfl | ⟨word, rfl⟩ <;> exact ⟨nofun, nofun⟩
      refine .inspect (.inspect (.isFalse ?_ (.leaveSymbol outside.ready ?_ ?_)))
      · have notEnd := mt isEndOfFile_iff.mp plain.2
        simp [current, outside.room, notEnd]
      · rw [kinds, shape]
        simpa using plain.1
      refine .bind (Gives.attempt (gives_item first printable.1 outside kinds)) ?_
      rintro _ second reaches ⟨item, rfl, depicts, onward⟩
      refine .bind (inductionHypothesis later printable.2
        (outside.onward reaches) onward (Nat.lt_of_succ_lt_succ more)) ?_
      intro items last further othersDepict
      have stored := depicts.extends further.extended reaches.ready.closed
      exact .pure further.ready (stored.cons othersDepict)

/-- The items of a program are read back. -/
theorem gives_items {trees : List ItemTree}
    (grammatical : ∀ tree ∈ trees, tree.Grammatical)
    (printable : trees.all ItemTree.isPrintable = true)
    (outside : state.Outside)
    (kinds : state.kinds = trees.flatMap ItemTree.kinds ++ [.endOfFile]) :
    Gives state items fun result later =>
      later.arena.Depicts result.1 (trees.map ItemTree.guarded) := by
  refine .inspect (.inspect (.bind (gives_itemsToEnd grammatical printable
    outside kinds ?_) ?_))
  · have short := length_le_flatMap ItemTree.kinds trees fun tree _ => by
      obtain ⟨kind, head, _⟩ := starts_itemKinds tree
      exact List.ne_nil_of_mem (List.mem_of_mem_head? head)
    rw [← State.kinds_length, kinds, List.length_append]
    omega
  intro items later reaches depicts
  exact .spanFrom fun span => .pure reaches.ready depicts

end Grammar

end PluginSurface
