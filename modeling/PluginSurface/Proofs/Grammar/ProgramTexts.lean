import PluginSurface.Proofs.Grammar.ExpressionTexts
import PluginSurface.Proofs.Grammar.PrintedPrograms

/-!
# Texts of programs

The text of a printable program spells the tokens that the program is made of.
A parser that is given the text therefore gives the program back, with
parentheses around the unary operands of unary operators.
-/

namespace PluginSurface

open Grammar Scan

/-! ## Lines -/

namespace Scan.Spells

variable {first : String} {kinds : List TokenKind}

theorem padding (level : Nat) : Spells Anything (Print.padding level) [] := by
  refine blanks (List.all_eq_true.mpr fun char member => ?_)
  rw [Print.padding, String.toList_ofList] at member
  rw [List.eq_of_mem_replicate member]
  rfl

section

variable {Part : Type} {text : Part → String}
  {partKinds : Part → List TokenKind} {parts : List Part}

/-- Texts behind each other. -/
theorem join (each : ∀ part ∈ parts, Spells Anything (text part)
    (partKinds part)) :
    Spells Anything (String.join (parts.map text))
      (parts.flatMap partKinds) := by
  induction parts with
  | nil => exact empty
  | cons part others inductionHypothesis =>
      obtain ⟨first, later⟩ := List.forall_mem_cons.mp each
      exact (first.andThen (inductionHypothesis later)).of_eq
        (by rw [List.map_cons, String.join_cons]) rfl

/-- Texts with empty lines between them. -/
theorem separated (each : ∀ part ∈ parts, Spells Anything (text part)
    (partKinds part)) :
    Spells Anything (String.intercalate "\n" (parts.map text))
      (parts.flatMap partKinds) := by
  induction parts with
  | nil => exact empty
  | cons part others inductionHypothesis =>
      obtain ⟨first, later⟩ := List.forall_mem_cons.mp each
      cases others with
      | nil => exact first.of_eq (by simp) (by simp)
      | cons next others =>
          have whole := (first.andThen feed).andThen (inductionHypothesis later)
          exact whole.of_eq (by simp) (by simp)

/-- Lines between braces. -/
theorem braced (level : Nat) (each : ∀ part ∈ parts, Spells Anything (text part)
    (partKinds part)) :
    Spells Anything (Print.braced level (parts.map text))
      (.symbol .openBrace :: parts.flatMap partKinds ++
        [.symbol .closeBrace]) := by
  have lines : Spells Anything
      (String.join (parts.map fun part =>
        Print.padding (level + 1) ++ text part ++ "\n"))
      (parts.flatMap partKinds) :=
    join fun part member =>
      (((padding (level + 1)).andThen (each part member)).andThen feed).of_eq
        rfl (by simp)
  have whole := ((((mark .openBrace rfl (by decide)).andThen feed).andThen
    lines).andThen (padding level)).andThen (mark .closeBrace rfl (by decide))
  exact whole.of_eq (by rw [Print.braced, List.map_map]; rfl) (by simp)

end

/-! ## Parts of declarations -/

theorem semicolon (spells : Spells Follows first kinds) :
    Spells Anything (first ++ ";") (kinds ++ [.symbol .semicolon]) :=
  spells.before (mark .semicolon rfl (by decide)) (by decide)

theorem typed {type : Option TypeShape}
    (grammatical : ∀ shape ∈ type, shape.Grammatical)
    (spells : Spells Follows first kinds) :
    Spells Follows (first ++ Print.typed type) (kinds ++ typedKinds type) := by
  cases type with
  | none => exact spells.of_eq String.append_empty (List.append_nil kinds)
  | some shape =>
      exact spells.before (colon.andThen (.type (grammatical shape rfl)))
        (breaks_append (by decide) _)

end Scan.Spells

theorem ExprTree.Enclosed.spellsText {tree : ExprTree} {depth : Nat}
    (enclosed : tree.Enclosed depth) (prints : tree.printsAlone = true) :
    tree.SpellsText :=
  ExprTree.spellsText tree enclosed.grammatical
    (ExprTree.printsAlone_iff.mp prints).1

theorem ExprTree.AllEnclosed.allSpellText {trees : List ExprTree} {depth : Nat}
    (enclosed : ExprTree.AllEnclosed depth trees)
    (prints : trees.all ExprTree.printsAlone = true) :
    ∀ tree ∈ trees, tree.SpellsText :=
  ExprTree.allSpellText trees enclosed.grammatical
    (ExprTree.arePrintable_of_all prints).1

section

variable {first : String} {kinds : List TokenKind} {value : Option ExprTree}

theorem Scan.Spells.initialized
    (standalone : ∀ tree ∈ value, tree.Standalone)
    (prints : value.all ExprTree.printsAlone = true)
    (spells : Spells Follows first kinds) :
    Spells Follows (first ++ Print.initialized value)
      (kinds ++ ExprTree.initializedKinds value) := by
  cases value with
  | none => exact spells.of_eq String.append_empty (List.append_nil kinds)
  | some tree =>
      exact spells.before
        ((Spells.spaced .equal).andThen ((standalone tree rfl).spellsText prints))
        (breaks_append (by decide) _)

theorem BindingKind.text_keyword (kind : BindingKind) :
    kind.keyword.text = kind.text := by
  cases kind <;> rfl

theorem spells_binding (kind : BindingKind) {name : String}
    {type : Option TypeShape} (named : isName name = true)
    (grammatical : ∀ shape ∈ type, shape.Grammatical)
    (standalone : ∀ tree ∈ value, tree.Standalone)
    (prints : value.all ExprTree.printsAlone = true) :
    Spells Anything (Print.binding kind name type value)
      (bindingKinds kind name type value) := by
  have begins := (Spells.leading kind.keyword).andThen
    (.word (isWord_of_isName named))
  have whole := ((begins.typed grammatical).initialized standalone
    prints).semicolon
  exact whole.of_eq (by rw [Print.binding, BindingKind.text_keyword]) rfl

end

/-! ## Statements -/

namespace StmtTree

theorem textsAt_eq_map (level : Nat) (trees : List StmtTree) :
    textsAt level trees = trees.map (textAt level) := by
  induction trees with
  | nil => rfl
  | cons tree others inductionHypothesis =>
      rw [textsAt, inductionHypothesis, List.map_cons]

theorem kindsOfAll_eq_flatMap (trees : List StmtTree) :
    kindsOfAll trees = trees.flatMap kinds := by
  induction trees with
  | nil => rfl
  | cons tree others inductionHypothesis =>
      rw [kindsOfAll, inductionHypothesis, List.flatMap_cons]

/-- A statement whose text spells its tokens at every level. -/
def SpellsText (tree : StmtTree) : Prop :=
  ∀ level, Spells Anything (tree.textAt level) tree.kinds

/-- A condition between parentheses behind a word. -/
theorem spells_condition (word : Keyword) {condition : ExprTree}
    (spells : condition.SpellsText) :
    Spells Anything (word.text ++ " " ++ "(" ++ condition.text ++ ")" ++ " ")
      (.keyword word :: .symbol .openParen :: condition.kinds ++
        [.symbol .closeParen]) := by
  have whole := ((((Spells.leading word).andThen
    (.mark .openParen rfl (by decide))).andThen spells).before
      (.mark .closeParen rfl (by decide)) (by decide)).andThen .space
  exact whole.of_eq rfl (by simp)

theorem spells_lines {statements : List StmtTree}
    (spells : ∀ tree ∈ statements, tree.SpellsText) (level : Nat) :
    Spells Anything (Print.braced level (textsAt (level + 1) statements))
      (.symbol .openBrace :: kindsOfAll statements ++
        [.symbol .closeBrace]) := by
  rw [textsAt_eq_map, kindsOfAll_eq_flatMap]
  exact .braced level fun tree member => spells tree member (level + 1)

theorem spells_branch {condition : ExprTree} {whenTrue : StmtTree}
    (spells : condition.SpellsText) (trueSpells : whenTrue.SpellsText) :
    (branch condition whenTrue none).SpellsText := fun level =>
  ((spells_condition .ifWord spells).andThen (trueSpells level)).of_eq
    (by simp only [textAt, String.append_assoc]; rfl) (by simp [kinds])

theorem spells_branchElse {condition : ExprTree} {whenTrue whenFalse : StmtTree}
    (spells : condition.SpellsText) (trueSpells : whenTrue.SpellsText)
    (falseSpells : whenFalse.SpellsText) :
    (branch condition whenTrue (some whenFalse)).SpellsText := fun level =>
  ((((spells_condition .ifWord spells).andThen (trueSpells level)).andThen
    (.between .elseWord)).andThen (falseSpells level)).of_eq
      (by simp only [textAt, String.append_assoc]; rfl) (by simp [kinds])

theorem spells_loop {condition : ExprTree} {body : StmtTree}
    (spells : condition.SpellsText) (bodySpells : body.SpellsText) :
    (loop condition body).SpellsText := fun level =>
  ((spells_condition .whileWord spells).andThen (bodySpells level)).of_eq
    (by simp only [textAt, String.append_assoc]; rfl) (by simp [kinds])

/-- A word in front of an expression and a semicolon. -/
theorem spells_leave (word : Keyword) {value : ExprTree}
    (spells : value.SpellsText) :
    Spells Anything (word.text ++ " " ++ value.text ++ ";")
      (.keyword word :: value.kinds ++ [.symbol .semicolon]) :=
  ((Spells.leading word).andThen spells).semicolon

mutual

theorem spellsText (tree : StmtTree) (grammatical : tree.Grammatical)
    (printable : tree.isPrintable = true) : tree.SpellsText := by
  cases tree with
  | block statements =>
      exact spells_lines (allSpellText statements grammatical printable)
  | expression value =>
      exact fun _ => (grammatical.1.spellsText printable).semicolon
  | binding kind name type value =>
      obtain ⟨named, types, standalone⟩ := grammatical
      exact fun _ => spells_binding kind named types standalone
        (Bool.and_eq_true_iff.mp printable).2
  | branch condition whenTrue whenFalse =>
      cases whenFalse with
      | none =>
          obtain ⟨conditionPrints, truePrints⟩ := Bool.and_eq_true_iff.mp printable
          exact spells_branch (grammatical.1.spellsText conditionPrints)
            (spellsText whenTrue grammatical.2 truePrints)
      | some whenFalse =>
          obtain ⟨standalone, ofTrue, -, ofFalse⟩ := grammatical
          obtain ⟨prints, falsePrints⟩ := Bool.and_eq_true_iff.mp printable
          obtain ⟨conditionPrints, truePrints⟩ := Bool.and_eq_true_iff.mp prints
          exact spells_branchElse (standalone.spellsText conditionPrints)
            (spellsText whenTrue ofTrue truePrints)
            (spellsText whenFalse ofFalse falsePrints)
  | loop condition body =>
      obtain ⟨conditionPrints, bodyPrints⟩ := Bool.and_eq_true_iff.mp printable
      exact spells_loop (grammatical.1.spellsText conditionPrints)
        (spellsText body grammatical.2 bodyPrints)
  | «return» value =>
      cases value with
      | none => exact fun _ => (Spells.keyword .returnWord).semicolon
      | some value =>
          exact fun _ => spells_leave .returnWord
            ((grammatical value rfl).spellsText printable)
  | throw value =>
      exact fun _ => spells_leave .throwWord (grammatical.spellsText printable)
  | empty => exact fun _ => .mark .semicolon rfl (by decide)

theorem allSpellText (trees : List StmtTree)
    (grammatical : AllGrammatical trees)
    (printable : arePrintable trees = true) :
    ∀ tree ∈ trees, tree.SpellsText := by
  cases trees with
  | nil => simp
  | cons tree others =>
      obtain ⟨firstPrints, othersPrint⟩ := Bool.and_eq_true_iff.mp printable
      exact List.forall_mem_cons.mpr
        ⟨spellsText tree grammatical.1 firstPrints,
          allSpellText others grammatical.2 othersPrint⟩

end

end StmtTree

/-! ## Declarations -/

/-- A word with a space behind it, if it is there. -/
theorem spells_keywordIf (isThere : Bool) (word : Keyword) :
    Spells Anything (if isThere then word.text ++ " " else "")
      (keywordIf isThere word) := by
  cases isThere
  · exact .empty
  · exact .leading word

theorem DecoratorTree.Grammatical.spellsText {tree : DecoratorTree}
    (grammatical : tree.Grammatical) (printable : tree.isPrintable = true)
    (level : Nat) : Spells Anything (tree.textAt level) tree.kinds := by
  obtain ⟨name, arguments⟩ := tree
  have spells := grammatical.arguments.allSpellText printable
  have named := ((Spells.padding level).andThen
    (.mark .atSign rfl (by decide))).andThen (.word grammatical.name)
  cases arguments with
  | nil =>
      exact (named.before .feed (by decide)).of_eq (by simp [textAt]; rfl) rfl
  | cons argument others =>
      have whole := (ExprTree.spells_arguments named spells).andThen .feed
      exact whole.of_eq
        (by simp only [textAt, String.append_assoc]; rfl) (by simp [kinds])

theorem spells_decorators {trees : List DecoratorTree}
    (grammatical : ∀ tree ∈ trees, tree.Grammatical)
    (printable : trees.all DecoratorTree.isPrintable = true) (level : Nat) :
    Spells Anything (String.join (trees.map (DecoratorTree.textAt level)))
      (trees.flatMap DecoratorTree.kinds) :=
  .join fun tree member => (grammatical tree member).spellsText
    (List.all_eq_true.mp printable tree member) level

theorem SlotTree.Grammatical.spellsText {tree : SlotTree}
    (grammatical : tree.Grammatical) (printable : tree.isPrintable = true) :
    Spells Follows (Print.slot tree) tree.kinds := by
  have typed := ((Spells.word grammatical.name).before .colon
    (by decide)).andThen (.type grammatical.type)
  exact (typed.initialized grammatical.initializer
    (Bool.and_eq_true_iff.mp printable).2).of_eq rfl (by simp [kinds])

namespace FunctionTree

/-- A signature, from the name of a function on. -/
theorem spells_signature {tree : FunctionTree} {introduction : String}
    {kinds : List TokenKind} (grammatical : tree.Grammatical)
    (printable : tree.params.all SlotTree.isPrintable = true)
    (introduces : Spells Anything introduction kinds) :
    Spells Follows
      (introduction ++ tree.name ++ "(" ++
        Print.joined (tree.params.map Print.slot) ++ ")" ++
        Print.typed tree.returnType)
      (kinds ++ .ofWord tree.name :: .symbol .openParen ::
        joinedKinds (tree.params.map SlotTree.kinds) ++
        .symbol .closeParen :: typedKinds tree.returnType) := by
  have slots := (introduces.andThen (.word grammatical.name)).parenthesized
    fun param member => (grammatical.params param member).1.spellsText
      (List.all_eq_true.mp printable param member)
  exact (slots.anywhere.typed grammatical.returnType).of_eq rfl (by simp)

/-- A body on the line of its signature, or a semicolon in its place. -/
def bodyText (level : Nat) : Option (List StmtTree) → String
  | some statements =>
      " " ++ Print.braced level (StmtTree.textsAt (level + 1) statements) ++ "\n"
  | none => ";\n"

theorem spells_body {first : String} {kinds : List TokenKind}
    {body : Option (List StmtTree)}
    (grammatical : ∀ statements ∈ body, StmtTree.AllGrammatical statements)
    (printable : body.all StmtTree.arePrintable = true) (level : Nat)
    (spells : Spells Follows first kinds) :
    Spells Anything (first ++ bodyText level body) (kinds ++ bodyKinds body) := by
  cases body with
  | none =>
      exact (spells.semicolon.andThen .feed).of_eq
        (by rw [String.append_assoc]; rfl) (by simp [bodyKinds])
  | some statements =>
      have lines := StmtTree.spells_lines (StmtTree.allSpellText statements
        (grammatical statements rfl) printable) level
      have whole := ((spells.before .space (by decide)).andThen lines).andThen
        .feed
      exact whole.of_eq (by simp only [bodyText, String.append_assoc])
        (by simp [bodyKinds])

/-- A function or a method behind the words that introduce it. -/
theorem spellsText {tree : FunctionTree} {introduction : String}
    {kinds : List TokenKind} (grammatical : tree.Grammatical)
    (printable : tree.isPrintable = true) (level : Nat)
    (introduces : Spells Anything introduction kinds) :
    Spells Anything (tree.textAt level introduction)
      (tree.decorators.flatMap DecoratorTree.kinds ++
        keywordIf tree.isExported .exportWord ++
        keywordIf tree.isDeclared .declareWord ++ kinds ++
        tree.kindsFromName) := by
  obtain ⟨decoratorsPrint, paramsPrint, -, bodyPrints⟩ :=
    isPrintable_iff.mp printable
  have words := (((spells_decorators grammatical.decorators decoratorsPrint
    level).andThen (.padding level)).andThen (spells_keywordIf tree.isExported
      .exportWord)).andThen (spells_keywordIf tree.isDeclared .declareWord)
  have whole := spells_body grammatical.body bodyPrints level
    (spells_signature grammatical paramsPrint (words.andThen introduces))
  exact whole.of_eq (by rw [textAt]; cases tree.body <;> rfl)
    (by simp [kindsFromName])

end FunctionTree

/-! ## Items -/

namespace ItemTree

theorem spells_exportMember {name : String} {newName : Option String}
    (named : isName name = true)
    (newNamed : ∀ other ∈ newName, isName other = true) :
    Spells Follows (exportMember name newName) (renamedKinds name newName) := by
  have first := Spells.word (isWord_of_isName named)
  cases newName with
  | none => exact first
  | some newName =>
      have second := Spells.word (isWord_of_isName (newNamed _ rfl))
      exact ((first.before (.between .asWord) (by decide)).andThen second).of_eq
        (by simp only [exportMember, String.append_assoc]; rfl) rfl

theorem importMember_eq (importedName localName : String) :
    importMember importedName localName = exportMember importedName
      (if importedName = localName then none else some localName) := by
  rw [importMember]
  split
  · next same => exact same.symm
  · rfl

theorem spells_importMember {importedName localName : String}
    (named : isName importedName = true) (newNamed : isName localName = true) :
    Spells Follows (importMember importedName localName)
      (importMemberKinds importedName localName) := by
  rw [importMember_eq]
  refine spells_exportMember named fun newName isNew => ?_
  split at isNew
  · cases isNew
  · cases isNew
    exact newNamed

theorem spells_importNames {members : List (String × String)}
    {namespaceName : Option String}
    (named : ∀ member ∈ members,
      isName member.1 = true ∧ isName member.2 = true)
    (spaceNamed : ∀ name ∈ namespaceName, isName name = true) :
    Spells Anything (importNames members namespaceName)
      (importNamesKinds members namespaceName) := by
  cases namespaceName with
  | some name =>
      have word := Spells.word (isWord_of_isName (spaceNamed _ rfl))
      have whole := (((Spells.symbolSpace .star).andThen
        (.leading .asWord)).andThen word).before (.between .fromWord) (by decide)
      exact whole.of_eq (by simp only [importNames, String.append_assoc]; rfl) rfl
  | none =>
      cases members with
      | nil => exact .empty
      | cons member others =>
          have listed := Spells.listed fun part inMembers =>
            spells_importMember (named part inMembers).1 (named part inMembers).2
          exact (listed.andThen (.between .fromWord)).of_eq
            (by simp only [importNames, String.append_assoc]; rfl)
            (by simp [importNamesKinds])

theorem spells_exportList {members : List (String × Option String)}
    {source : Option String}
    (named : ∀ member ∈ members, isName member.1 = true ∧
      ∀ newName ∈ member.2, isName newName = true) :
    Spells Anything (exportList members source).text
      (exportList members source).kinds := by
  have listed := (Spells.leading .exportWord).andThen (.listed
    fun part member =>
      spells_exportMember (named part member).1 (named part member).2)
  cases source with
  | none =>
      exact (listed.anywhere.semicolon.andThen .feed).of_eq
        (by simp only [text, String.append_assoc]; rfl) (by simp [kinds])
  | some source =>
      have given := (listed.andThen (.between .fromWord)).andThen
        (.quoted source)
      exact (given.anywhere.semicolon.andThen .feed).of_eq
        (by simp only [text, String.append_assoc]; rfl) (by simp [kinds])

theorem spells_importList {members : List (String × String)}
    {namespaceName : Option String} (source : String)
    (named : ∀ member ∈ members,
      isName member.1 = true ∧ isName member.2 = true)
    (spaceNamed : ∀ name ∈ namespaceName, isName name = true) :
    Spells Anything (importList members namespaceName source).text
      (importList members namespaceName source).kinds := by
  have given := ((Spells.leading .importWord).andThen
    (spells_importNames named spaceNamed)).andThen (.quoted source)
  exact (given.anywhere.semicolon.andThen .feed).of_eq
    (by simp only [text, String.append_assoc]; rfl) (by simp [kinds])

/-- The class that a class extends, if there is one. -/
def baseText : Option TypeShape → String
  | some base => " extends " ++ base.text
  | none => ""

theorem spells_base {first : String} {kinds : List TokenKind}
    {base : Option TypeShape} (grammatical : ∀ type ∈ base, type.Grammatical)
    (spells : Spells Follows first kinds) :
    Spells Follows (first ++ baseText base) (kinds ++ baseKinds base) := by
  cases base with
  | none => exact spells.of_eq String.append_empty (List.append_nil kinds)
  | some base =>
      have extended : isWord "extends" = true := by decide
      have word := (Spells.space.andThen (.word extended)).before .space
        (by decide)
      exact ((spells.before word (by decide)).andThen
        (.type (grammatical base rfl))).of_eq
          (by simp only [baseText, String.append_assoc]; rfl)
          (by simp [baseKinds])

theorem spells_fields {fields : List SlotTree}
    (grammatical : ∀ field ∈ fields, field.Grammatical)
    (printable : fields.all SlotTree.isPrintable = true) :
    Spells Anything
      (String.join
        (fields.map fun field => Print.padding 1 ++ Print.slot field ++ ";\n"))
      (fields.flatMap fun field => field.kinds ++ [.symbol .semicolon]) := by
  refine .join fun field member => ?_
  have slot := (grammatical field member).spellsText
    (List.all_eq_true.mp printable field member)
  have line := ((Spells.padding 1).andThen slot).semicolon.andThen .feed
  exact line.of_eq (by simp only [String.append_assoc]; rfl) (by simp)

theorem spells_methods {methods : List FunctionTree}
    (grammatical : ∀ tree ∈ methods, tree.InClass)
    (printable : methods.all FunctionTree.isPrintable = true) :
    Spells Anything (String.join (methods.map (FunctionTree.textAt 1 "")))
      (methods.flatMap FunctionTree.methodKinds) := by
  refine .join fun tree member => ?_
  have inClass := grammatical tree member
  have whole := FunctionTree.spellsText inClass.grammatical
    (List.all_eq_true.mp printable tree member) 1 .empty
  exact whole.of_eq rfl
    (by simp [FunctionTree.methodKinds, keywordIf, inClass.plain])

theorem spells_class {name : String} {decorators : List DecoratorTree}
    {isExported : Bool} {base : Option TypeShape} {fields : List SlotTree}
    {methods : List FunctionTree}
    (grammatical : (ItemTree.class name decorators isExported base fields
      methods).Grammatical)
    (printable : (ItemTree.class name decorators isExported base fields
      methods).isPrintable = true) :
    Spells Anything
      (ItemTree.class name decorators isExported base fields methods).text
      (ItemTree.class name decorators isExported base fields methods).kinds := by
  obtain ⟨named, ofDecorators, ofBase, ofFields, ofMethods⟩ := grammatical
  simp only [isPrintable, Bool.and_eq_true, and_assoc] at printable
  obtain ⟨decoratorsPrint, -, fieldsPrint, methodsPrint⟩ := printable
  have begins := (((spells_decorators ofDecorators decoratorsPrint 0).andThen
    (spells_keywordIf isExported .exportWord)).andThen
      (.leading .classWord)).andThen (.word (isWord_of_isName named))
  have opened := ((spells_base ofBase begins).before .space (by decide)).andThen
    ((Spells.mark .openBrace rfl (by decide)).andThen .feed)
  have members := (opened.andThen (spells_fields ofFields fieldsPrint)).andThen
    (spells_methods ofMethods methodsPrint)
  have whole := members.andThen
    ((Spells.mark .closeBrace rfl (by decide)).andThen .feed)
  refine whole.of_eq ?_ ?_
  · simp only [text, String.append_assoc]
    cases base <;> rfl
  · cases base <;> simp [kinds, baseKinds]

theorem spellsText {tree : ItemTree} (grammatical : tree.Grammatical)
    (printable : tree.isPrintable = true) :
    Spells Anything tree.text tree.kinds := by
  cases tree with
  | function tree =>
      have whole := FunctionTree.spellsText grammatical.grammatical printable 0
        (.leading .functionWord)
      exact whole.of_eq rfl (by simp [kinds, FunctionTree.kinds])
  | «class» => exact spells_class grammatical printable
  | exportList => exact spells_exportList grammatical
  | importList members namespaceName source =>
      exact spells_importList source grammatical.1
        fun name member => (grammatical.2 name member).1
  | «variable» kind name type value isExported decorators =>
      obtain ⟨named, ofType, standalone, ofDecorators⟩ := grammatical
      simp only [isPrintable, Bool.and_eq_true, and_assoc] at printable
      obtain ⟨-, valuePrints, decoratorsPrint⟩ := printable
      have words := (spells_decorators ofDecorators decoratorsPrint 0).andThen
        (spells_keywordIf isExported .exportWord)
      exact (words.andThen (spells_binding kind named ofType standalone
        valuePrints)).andThen .feed |>.of_eq rfl (by simp [kinds])

end ItemTree

/-! ## Whole programs -/

theorem ProgramTree.spellsText {tree : ProgramTree}
    (grammatical : tree.Grammatical) (printable : tree.isPrintable = true) :
    Spells Anything tree.text tree.kinds :=
  .separated fun item member => ItemTree.spellsText (grammatical item member)
    (List.all_eq_true.mp printable item member)

/-- The text of a grammatical program that is printable holds that program. -/
theorem SourceText.parse_text {name : String} {tree : ProgramTree}
    (grammatical : tree.Grammatical) (printable : tree.isPrintable = true)
    (path : modulePath name = tree.path) :
    ∃ again, SourceText.parse ⟨name, tree.text⟩ tree.kind = .ok again ∧
      again.tree = tree.guarded := by
  have read := tree.spellsText grammatical printable trivial .nil
  rw [List.append_nil, List.append_nil] at read
  obtain ⟨tokens, finish, scanned, kinds, isEnd⟩ := scan_eq name read
  have lexed := @scan_isLexed ⟨name, tree.text⟩ (by rw [scanned]; rfl)
  rw [scanned] at lexed
  have outside : (initialState ⟨name, tree.text⟩ (tokens ++ [finish])).Outside :=
    ⟨⟨Arena.closed_empty, isLexed_completed lexed, kind_finishOf _⟩, rfl, rfl⟩
  have stateKinds :
      (initialState ⟨name, tree.text⟩ (tokens ++ [finish])).kinds =
        tree.kinds ++ [.endOfFile] := by
    rw [State.kinds, rest_initialState _ _ isEnd, List.map_append, kinds,
      List.map_singleton, isEnd]
  obtain ⟨⟨found, span⟩, later, given, reaches, depicts⟩ :=
    gives_items grammatical printable outside stateKinds
  refine ⟨⟨modulePath name, tree.kind, found, later.arena, span⟩, ?_, ?_⟩
  · have silent : later.diagnostics.hasErrors = false := by
      rw [reaches.silent]
      rfl
    rw [parse, scanned]
    simp only [Grammar.parse, given, silent]
    rfl
  · rw [Program.tree, path]
    exact congrArg _ depicts.shown

end PluginSurface
