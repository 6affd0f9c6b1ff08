import PluginSurface.Proofs.Grammar.Grammatical

/-!
# What is lost in print

The text of a program does not say everything about it. A key of an object that
is no word looks like other tokens, a variable that an entry stands for may have
a reserved name, a nullable type that is made nullable again reads like a
bitwise operator, and an angle behind a cast to a name opens type arguments. A
program in which none of this happens is printable. Its text says it up to the
parentheses that guard a prefix operator behind another one.
-/

namespace PluginSurface

open Grammar

/-! ## Printable programs -/

namespace TypeShape

/-- A name, behind which an angle opens type arguments. -/
def isBareName : TypeShape → Bool
  | named _ [] => true
  | _ => false

mutual

/-- Whether no nullable type is made nullable again. -/
def isPrintable : TypeShape → Bool
  | named _ arguments => arePrintable arguments
  | array element => element.isPrintable
  | nullable inner => !inner.isNullable && inner.isPrintable

def arePrintable : List TypeShape → Bool
  | [] => true
  | type :: rest => type.isPrintable && arePrintable rest

end

end TypeShape

namespace ExprTree

mutual

def isPrintable : ExprTree → Bool
  | array elements => arePrintable elements
  | object entries => entriesPrintable entries
  | identifier name => isName name
  | new type arguments => type.isPrintable && arePrintable arguments
  | call callee types arguments =>
      callee.isPrintable && TypeShape.arePrintable types &&
        arePrintable arguments
  | member target _ => target.isPrintable
  | index target position => target.isPrintable && position.isPrintable
  | binary operator left right =>
      left.isPrintable && right.isPrintable &&
        !(operator == .less && left.endType?.any TypeShape.isBareName)
  | unary _ operand => operand.isPrintable
  | assign _ target value => target.isPrintable && value.isPrintable
  | conditional condition whenTrue whenFalse =>
      condition.isPrintable && whenTrue.isPrintable && whenFalse.isPrintable
  | cast operand type => operand.isPrintable && type.isPrintable
  | paren inner => inner.isPrintable
  | _ => true

def arePrintable : List ExprTree → Bool
  | [] => true
  | tree :: rest => tree.isPrintable && arePrintable rest

def entriesPrintable : List (String × ExprTree) → Bool
  | [] => true
  | (key, value) :: rest =>
      Scan.isWord key && value.isPrintable && entriesPrintable rest

end

mutual

/-- How deep brackets are nested in the text of an expression. -/
def printedNesting : ExprTree → Nat
  | array elements => printedNestingOfAll elements
  | object entries => printedNestingOfEntries entries
  | new _ arguments => printedNestingOfAll arguments
  | call callee _ arguments =>
      max callee.printedNesting (printedNestingOfAll arguments)
  | member target _ => target.printedNesting
  | index target position =>
      max target.printedNesting (position.printedNesting + 1)
  | binary _ left right => max left.printedNesting right.printedNesting
  | unary _ operand =>
      if operand.isUnary then operand.printedNesting + 1
      else operand.printedNesting
  | assign _ target value => max target.printedNesting value.printedNesting
  | conditional condition whenTrue whenFalse =>
      max condition.printedNesting
        (max whenTrue.printedNesting whenFalse.printedNesting)
  | cast operand _ => operand.printedNesting
  | paren inner => inner.printedNesting + 1
  | _ => 0

def printedNestingOfAll : List ExprTree → Nat
  | [] => 0
  | tree :: rest => max (tree.printedNesting + 1) (printedNestingOfAll rest)

def printedNestingOfEntries : List (String × ExprTree) → Nat
  | [] => 0
  | (_, value) :: rest =>
      max (value.printedNesting + 1) (printedNestingOfEntries rest)

end

theorem isPrintable_call_iff {callee : ExprTree} {types : List TypeShape}
    {arguments : List ExprTree} :
    (call callee types arguments).isPrintable = true ↔
      callee.isPrintable = true ∧ TypeShape.arePrintable types = true ∧
        arePrintable arguments = true := by
  simp only [isPrintable, Bool.and_eq_true, and_assoc]

theorem isPrintable_binary_iff {operator : BinaryOperator}
    {left right : ExprTree} :
    (binary operator left right).isPrintable = true ↔
      left.isPrintable = true ∧ right.isPrintable = true ∧
        (operator = .less → left.endType?.any TypeShape.isBareName = false) := by
  simp only [isPrintable, Bool.and_eq_true, Bool.not_eq_true',
    Bool.and_eq_false_imp, beq_iff_eq, and_assoc]

theorem printedNesting_call (callee : ExprTree) (types : List TypeShape)
    (arguments : List ExprTree) :
    (call callee types arguments).printedNesting =
      max callee.printedNesting (printedNestingOfAll arguments) := by
  rw [printedNesting]

theorem printedNesting_unary (operator : UnaryOperator) (operand : ExprTree) :
    (unary operator operand).printedNesting =
      if operand.isUnary then operand.printedNesting + 1
      else operand.printedNesting := by
  rw [printedNesting]

@[simp]
theorem printedNesting_paren (inner : ExprTree) :
    (paren inner).printedNesting = inner.printedNesting + 1 := by
  rw [printedNesting]

/-- Whether an expression that stands in no other one can be printed and read
again. -/
def printsAlone (tree : ExprTree) : Bool :=
  tree.isPrintable && tree.printedNesting < nestingLimit

theorem printsAlone_iff {tree : ExprTree} :
    tree.printsAlone = true ↔
      tree.isPrintable = true ∧ tree.printedNesting < nestingLimit := by
  simp [printsAlone]

theorem arePrintable_of_all {trees : List ExprTree}
    (prints : trees.all printsAlone = true) :
    arePrintable trees = true ∧ printedNestingOfAll trees ≤ nestingLimit := by
  induction trees with
  | nil => exact ⟨rfl, Nat.zero_le _⟩
  | cons tree others inductionHypothesis =>
      rw [List.all_cons, Bool.and_eq_true] at prints
      obtain ⟨printable, shallow⟩ := printsAlone_iff.mp prints.1
      obtain ⟨othersPrintable, othersShallow⟩ := inductionHypothesis prints.2
      refine ⟨by simp [arePrintable, printable, othersPrintable], ?_⟩
      rw [printedNestingOfAll]
      omega

end ExprTree

namespace StmtTree

mutual

def isPrintable : StmtTree → Bool
  | block statements => arePrintable statements
  | expression value => value.printsAlone
  | binding _ _ type value =>
      type.all TypeShape.isPrintable && value.all ExprTree.printsAlone
  | branch condition whenTrue none =>
      condition.printsAlone && whenTrue.isPrintable
  | branch condition whenTrue (some whenFalse) =>
      condition.printsAlone && whenTrue.isPrintable && whenFalse.isPrintable
  | loop condition body => condition.printsAlone && body.isPrintable
  | .return value => value.all ExprTree.printsAlone
  | throw value => value.printsAlone
  | empty => true

def arePrintable : List StmtTree → Bool
  | [] => true
  | tree :: rest => tree.isPrintable && arePrintable rest

end

end StmtTree

def DecoratorTree.isPrintable (tree : DecoratorTree) : Bool :=
  tree.arguments.all ExprTree.printsAlone

def SlotTree.isPrintable (tree : SlotTree) : Bool :=
  tree.type.isPrintable && tree.initializer.all ExprTree.printsAlone

def FunctionTree.isPrintable (tree : FunctionTree) : Bool :=
  tree.decorators.all DecoratorTree.isPrintable &&
    tree.params.all SlotTree.isPrintable &&
    tree.returnType.all TypeShape.isPrintable &&
    tree.body.all StmtTree.arePrintable

theorem FunctionTree.isPrintable_iff {tree : FunctionTree} :
    tree.isPrintable = true ↔
      tree.decorators.all DecoratorTree.isPrintable = true ∧
        tree.params.all SlotTree.isPrintable = true ∧
        tree.returnType.all TypeShape.isPrintable = true ∧
        tree.body.all StmtTree.arePrintable = true := by
  simp only [isPrintable, Bool.and_eq_true, and_assoc]

def ItemTree.isPrintable : ItemTree → Bool
  | function tree => tree.isPrintable
  | .class _ decorators _ base fields methods =>
      decorators.all DecoratorTree.isPrintable &&
        base.all TypeShape.isPrintable && fields.all SlotTree.isPrintable &&
        methods.all FunctionTree.isPrintable
  | exportList .. | importList .. => true
  | .variable _ _ type value _ decorators =>
      type.all TypeShape.isPrintable && value.all ExprTree.printsAlone &&
        decorators.all DecoratorTree.isPrintable

def ProgramTree.isPrintable (tree : ProgramTree) : Bool :=
  tree.items.all ItemTree.isPrintable

/-! ## Guarded programs -/

namespace ExprTree

mutual

/-- An expression with parentheses around each unary operand of a unary
operator. -/
def guarded : ExprTree → ExprTree
  | array elements => array (allGuarded elements)
  | object entries => object (entriesGuarded entries)
  | new type arguments => new type (allGuarded arguments)
  | call callee types arguments =>
      call callee.guarded types (allGuarded arguments)
  | member target property => member target.guarded property
  | index target position => index target.guarded position.guarded
  | binary operator left right => binary operator left.guarded right.guarded
  | unary operator operand =>
      unary operator
        (if operand.isUnary then paren operand.guarded else operand.guarded)
  | assign operator target value =>
      assign operator target.guarded value.guarded
  | conditional condition whenTrue whenFalse =>
      conditional condition.guarded whenTrue.guarded whenFalse.guarded
  | cast operand type => cast operand.guarded type
  | paren inner => paren inner.guarded
  | tree => tree

def allGuarded : List ExprTree → List ExprTree
  | [] => []
  | tree :: rest => tree.guarded :: allGuarded rest

def entriesGuarded : List (String × ExprTree) → List (String × ExprTree)
  | [] => []
  | (key, value) :: rest => (key, value.guarded) :: entriesGuarded rest

end

theorem isUnary_guarded (tree : ExprTree) :
    tree.guarded.isUnary = tree.isUnary := by
  cases tree <;> rfl

mutual

theorem text_guarded (tree : ExprTree) : tree.guarded.text = tree.text := by
  cases tree with
  | array elements => simp only [guarded, text, texts_guarded elements]
  | object entries =>
      cases entries with
      | nil => rfl
      | cons entry rest =>
          have same := entryTexts_guarded (entry :: rest)
          rw [entriesGuarded] at same
          simp only [guarded, entriesGuarded, text, same]
  | new type arguments => simp only [guarded, text, texts_guarded arguments]
  | call callee types arguments =>
      simp only [guarded, text, text_guarded callee, texts_guarded arguments]
  | member target property => simp only [guarded, text, text_guarded target]
  | index target position =>
      simp only [guarded, text, text_guarded target, text_guarded position]
  | binary operator left right =>
      simp only [guarded, text, text_guarded left, text_guarded right]
  | unary operator operand =>
      have same := text_guarded operand
      have closed : (paren operand.guarded).isUnary = false := rfl
      cases known : operand.isUnary with
      | true =>
          simp [guarded, text, known, same, closed, String.append_assoc]
      | false => simp [guarded, text, known, same, isUnary_guarded]
  | assign operator target value =>
      simp only [guarded, text, text_guarded target, text_guarded value]
  | conditional condition whenTrue whenFalse =>
      simp only [guarded, text, text_guarded condition, text_guarded whenTrue,
        text_guarded whenFalse]
  | cast operand type => simp only [guarded, text, text_guarded operand]
  | paren inner => simp only [guarded, text, text_guarded inner]
  | _ => rfl

theorem texts_guarded (trees : List ExprTree) :
    texts (allGuarded trees) = texts trees := by
  cases trees with
  | nil => rfl
  | cons tree rest =>
      simp only [allGuarded, texts, text_guarded tree, texts_guarded rest]

theorem entryTexts_guarded (entries : List (String × ExprTree)) :
    entryTexts (entriesGuarded entries) = entryTexts entries := by
  cases entries with
  | nil => rfl
  | cons entry rest =>
      obtain ⟨key, value⟩ := entry
      simp only [entriesGuarded, entryTexts, text_guarded value,
        entryTexts_guarded rest]

end

end ExprTree

namespace StmtTree

mutual

def guarded : StmtTree → StmtTree
  | block statements => block (allGuarded statements)
  | expression value => expression value.guarded
  | binding kind name type value =>
      binding kind name type (value.map ExprTree.guarded)
  | branch condition whenTrue none =>
      branch condition.guarded whenTrue.guarded none
  | branch condition whenTrue (some whenFalse) =>
      branch condition.guarded whenTrue.guarded (some whenFalse.guarded)
  | loop condition body => loop condition.guarded body.guarded
  | .return value => .return (value.map ExprTree.guarded)
  | throw value => throw value.guarded
  | empty => empty

def allGuarded : List StmtTree → List StmtTree
  | [] => []
  | tree :: rest => tree.guarded :: allGuarded rest

end

theorem initialized_guarded (value : Option ExprTree) :
    Print.initialized (value.map ExprTree.guarded) =
      Print.initialized value := by
  cases value with
  | none => rfl
  | some value =>
      simp only [Print.initialized, Option.map, ExprTree.text_guarded]

mutual

theorem textAt_guarded (tree : StmtTree) (level : Nat) :
    tree.guarded.textAt level = tree.textAt level := by
  cases tree with
  | block statements => simp only [guarded, textAt, textsAt_guarded statements]
  | branch condition whenTrue whenFalse =>
      cases whenFalse with
      | none =>
          simp only [guarded, textAt, ExprTree.text_guarded,
            textAt_guarded whenTrue]
      | some whenFalse =>
          simp only [guarded, textAt, ExprTree.text_guarded,
            textAt_guarded whenTrue, textAt_guarded whenFalse]
  | loop condition body =>
      simp only [guarded, textAt, ExprTree.text_guarded, textAt_guarded body]
  | binding kind name type value =>
      simp only [guarded, textAt, Print.binding, initialized_guarded]
  | «return» value =>
      cases value with
      | none => rfl
      | some value =>
          simp only [guarded, Option.map, textAt, ExprTree.text_guarded]
  | empty => rfl
  | _ => simp only [guarded, textAt, ExprTree.text_guarded]

theorem textsAt_guarded (trees : List StmtTree) (level : Nat) :
    textsAt level (allGuarded trees) = textsAt level trees := by
  cases trees with
  | nil => rfl
  | cons tree rest =>
      simp only [allGuarded, textsAt, textAt_guarded tree,
        textsAt_guarded rest]

end

end StmtTree

namespace DecoratorTree

def guarded (tree : DecoratorTree) : DecoratorTree :=
  { tree with arguments := ExprTree.allGuarded tree.arguments }

@[simp]
theorem textAt_comp_guarded (level : Nat) :
    textAt level ∘ guarded = textAt level := by
  funext tree
  obtain ⟨name, arguments⟩ := tree
  cases arguments with
  | nil => rfl
  | cons first others =>
      have same := ExprTree.texts_guarded (first :: others)
      rw [ExprTree.allGuarded] at same
      simp only [Function.comp_apply, guarded, textAt, ExprTree.allGuarded, same]

end DecoratorTree

namespace SlotTree

def guarded (tree : SlotTree) : SlotTree :=
  { tree with initializer := tree.initializer.map ExprTree.guarded }

@[simp]
theorem slot_comp_guarded : Print.slot ∘ guarded = Print.slot := by
  funext tree
  simp only [Function.comp_apply, guarded, Print.slot,
    StmtTree.initialized_guarded]

end SlotTree

namespace FunctionTree

def guarded (tree : FunctionTree) : FunctionTree :=
  { tree with
    decorators := tree.decorators.map DecoratorTree.guarded
    params := tree.params.map SlotTree.guarded
    body := tree.body.map StmtTree.allGuarded }

@[simp]
theorem textAt_comp_guarded (level : Nat) (introduction : String) :
    textAt level introduction ∘ guarded = textAt level introduction := by
  funext tree
  obtain ⟨name, decorators, external, isExported, isDeclared, params,
    returnType, body⟩ := tree
  cases body with
  | none =>
      simp only [Function.comp_apply, guarded, textAt, List.map_map,
        DecoratorTree.textAt_comp_guarded, SlotTree.slot_comp_guarded,
        Option.map_none]
      rfl
  | some body =>
      simp only [Function.comp_apply, guarded, textAt, List.map_map,
        DecoratorTree.textAt_comp_guarded, SlotTree.slot_comp_guarded,
        Option.map_some, StmtTree.textsAt_guarded]
      rfl

end FunctionTree

namespace ItemTree

def guarded : ItemTree → ItemTree
  | function tree => function tree.guarded
  | .class name decorators isExported base fields methods =>
      .class name (decorators.map DecoratorTree.guarded) isExported base
        (fields.map SlotTree.guarded) (methods.map FunctionTree.guarded)
  | exportList members source => exportList members source
  | importList members namespaceName source =>
      importList members namespaceName source
  | .variable kind name type value isExported decorators =>
      .variable kind name type (value.map ExprTree.guarded) isExported
        (decorators.map DecoratorTree.guarded)

@[simp]
theorem text_comp_guarded : text ∘ guarded = text := by
  funext tree
  cases tree with
  | function tree =>
      exact congrFun (FunctionTree.textAt_comp_guarded 0 "function ") tree
  | «class» name decorators isExported base fields methods =>
      have lines : (fun field => Print.padding 1 ++ Print.slot field ++ ";\n") ∘
            SlotTree.guarded =
          fun field => Print.padding 1 ++ Print.slot field ++ ";\n" := by
        funext field
        exact congrArg (Print.padding 1 ++ · ++ ";\n")
          (congrFun SlotTree.slot_comp_guarded field)
      simp [guarded, text, lines]
  | «variable» kind name type value isExported decorators =>
      simp [guarded, text, Print.binding, StmtTree.initialized_guarded]
  | _ => rfl

end ItemTree

namespace ProgramTree

/-- A program with parentheses around each unary operand of a unary
operator. -/
def guarded (tree : ProgramTree) : ProgramTree :=
  { tree with items := tree.items.map ItemTree.guarded }

theorem text_guarded (tree : ProgramTree) : tree.guarded.text = tree.text := by
  simp [guarded, text]

end ProgramTree

end PluginSurface
