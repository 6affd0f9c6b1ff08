import PluginSurface.Proofs.Grammar.ParsedDeclarations
import PluginSurface.Proofs.Optional.WellFormed
import PluginSurface.Proofs.Syntax.Printable
import PluginSurface.Proofs.Syntax.WholeNumbers

/-!
# Trees of masked programs

What masking does to the tree of a program. A guard is grammatical and printable
because the default that it assigns is, and the statements behind the guards
stay as they are, so masking leads from programs that can be printed to programs
that can be printed.
-/

namespace PluginSurface

open Grammar Scan

/-- A whole number that fits a word is one token. -/
theorem isNumber_written {spelling digits : List Char} {base : Nat}
    {value : UInt64} (written : WrittenNumber spelling base digits)
    (read : wordValue? base (withoutUnderscores digits) = some value) :
    TokenKind.IsNumber (.integer value (String.ofList spelling)) := by
  refine ⟨spelling ++ [';'], ?_, fun start => ?_⟩
  · obtain ⟨first, more, rfl, isDigit⟩ := written.starts
    exact startsNumber_of_isDigit _ isDigit
  · rw [scanNumber_written written, numberLexeme_word, read]
    simp [TokenKind.text, numberFaults]

namespace Masking

/-! ## Guards -/

def numberTree (value : Nat) : ExprTree :=
  .integer (UInt64.ofNat value) (toString value)

/-- The bits of the mask from a position on. -/
def maskTree (index : Nat) : ExprTree :=
  if index = 0 then .identifier maskParameter
  else .paren (.binary .shiftRight (.identifier maskParameter)
    (numberTree index))

def testTree (index : Nat) : ExprTree :=
  .binary .equal (.paren (.binary .bitAnd (maskTree index) (numberTree 1)))
    (numberTree 0)

def guardTree (index : Nat) (name : String) (default : ExprTree) : StmtTree :=
  .branch (testTree index)
    (.expression (.assign none (.identifier name) default)) none

/-- The guards of parameters from a position on. -/
def guardTrees (index : Nat) : List SlotTree → List StmtTree
  | [] => []
  | param :: rest =>
      match param.initializer with
      | none => guardTrees (index + 1) rest
      | some default =>
          guardTree index param.name default :: guardTrees (index + 1) rest

section

variable {arena : Arena} {index : Nat}

theorem exprTree_of_stores (closed : arena.Closed) {id : ExprId} {node : Expr}
    (stores : arena.StoresExpr id node) :
    arena.exprTree id = node.treeWith arena.exprTree := by
  rw [closed.exprTree_eq, stores.2]

theorem stmtTree_of_stores (closed : arena.Closed) {id : StmtId} {node : Stmt}
    (stores : arena.StoresStmt id node) :
    arena.stmtTree id = node.treeWith arena.exprTree arena.stmtTree := by
  rw [closed.stmtTree_eq stores.1, stores.2]

theorem MaskFrom.exprTree (closed : arena.Closed) {id : ExprId}
    (mask : MaskFrom arena index id) : arena.exprTree id = maskTree index := by
  cases mask with
  | whole mask => exact exprTree_of_stores closed mask
  | shifted later paren operation operand count =>
      rw [exprTree_of_stores closed paren, Expr.treeWith,
        exprTree_of_stores closed operation, Expr.treeWith,
        exprTree_of_stores closed operand, exprTree_of_stores closed count,
        maskTree, if_neg later]
      rfl

theorem UnsuppliedTest.exprTree (closed : arena.Closed) {id : ExprId}
    (test : UnsuppliedTest arena index id) :
    arena.exprTree id = testTree index := by
  obtain ⟨mask, one, cut, paren, zero, test⟩ := test
  rw [exprTree_of_stores closed test, Expr.treeWith,
    exprTree_of_stores closed paren, Expr.treeWith,
    exprTree_of_stores closed cut, Expr.treeWith, mask.exprTree closed,
    exprTree_of_stores closed one, exprTree_of_stores closed zero]
  rfl

theorem GuardStatement.stmtTree (closed : arena.Closed) {name : String}
    {initializer : ExprId} {id : StmtId}
    (guard : GuardStatement arena index name initializer id) :
    arena.stmtTree id =
      guardTree index name (arena.exprTree initializer) := by
  obtain ⟨test, target, assign, statement, node⟩ := guard
  rw [stmtTree_of_stores closed node, Stmt.treeWith, test.exprTree closed,
    stmtTree_of_stores closed statement, Stmt.treeWith,
    exprTree_of_stores closed assign, Expr.treeWith,
    exprTree_of_stores closed target]
  rfl

theorem Guards.stmtTrees (closed : arena.Closed) {params : List Param}
    {ids : List StmtId} (guards : Guards arena index params ids) :
    ids.map arena.stmtTree =
      guardTrees index (params.map (Param.tree arena)) := by
  induction guards with
  | nil => rfl
  | required noDefault _ inductionHypothesis =>
      rw [inductionHypothesis, List.map_cons, guardTrees]
      simp only [Param.tree, noDefault, Option.map_none]
  | optional default guard _ inductionHypothesis =>
      rw [List.map_cons, List.map_cons, inductionHypothesis, guardTrees,
        guard.stmtTree closed]
      simp only [Param.tree, default, Option.map_some]

end

/-! ## Guards can be printed -/

/-- The positions of a mask are few enough to be tried one by one. -/
theorem grammatical_numberTree {index : Nat} (small : index < Mask.width) :
    (numberTree index).Grammatical := by
  have known : ∀ index < Mask.width, (toString index).toList ≠ [] ∧
      ((toString index).toList.all fun char =>
        decide (∃ value < (10 : Nat), Scan.StandsFor char value)) = true ∧
      wordValue? 10 (withoutUnderscores (toString index).toList) =
        some (UInt64.ofNat index) := by
    decide +kernel
  obtain ⟨nonempty, digits, read⟩ := known index small
  obtain ⟨first, more, spelled⟩ := List.exists_cons_of_ne_nil nonempty
  rw [spelled] at digits read
  have stands : ∀ char ∈ first :: more, ∃ value < 10,
      Scan.StandsFor char value := fun char member =>
    of_decide_eq_true (List.all_eq_true.mp digits char member)
  obtain ⟨starts, further⟩ := List.forall_mem_cons.mp stands
  have written : WrittenNumber (first :: more) 10 (first :: more) :=
    .decimal starts fun char member => .inl (further char member)
  have isNumber := isNumber_written written read
  rwa [← spelled, String.ofList_toList] at isNumber

theorem tighter_numberTree {operator : BinaryOperator} {value : Nat}
    (loose : operator.precedence < ExprTree.postfixTightness) :
    operator.precedence < (numberTree value).loosest :=
  loose

theorem grammatical_maskTree {index : Nat} (small : index < Mask.width) :
    (maskTree index).Grammatical ∧
      (maskTree index).loosest = ExprTree.postfixTightness ∧
        ∀ precedence, (maskTree index).admits precedence := by
  have count := grammatical_numberTree small
  unfold maskTree
  split
  · exact ⟨trivial, rfl, fun _ => trivial⟩
  · exact ⟨⟨by decide, trivial, tighter_numberTree (by decide), trivial, count,
      nofun⟩, rfl, fun _ => trivial⟩

theorem standalone_testTree {index : Nat} (small : index < Mask.width) :
    (testTree index).Standalone where
  grammatical := by
    obtain ⟨mask, tight, admits⟩ := grammatical_maskTree small
    have zero := @grammatical_numberTree 0 (by decide)
    have one := @grammatical_numberTree 1 (by decide)
    refine ⟨Nat.zero_lt_succ 11, trivial, tighter_numberTree (by decide),
      ⟨?_, admits _, tighter_numberTree (by decide), mask, one, nofun⟩, zero,
      nofun⟩
    rw [tight]
    decide
  shallow := by
    unfold testTree maskTree
    split <;> simp [ExprTree.nesting, numberTree, nestingLimit]
  unmistaken after _ := by
    unfold testTree maskTree
    split <;> simp [ExprTree.Unmistaken, numberTree]

theorem isName_maskParameter : isName maskParameter = true := by
  decide

theorem printsAlone_testTree (index : Nat) :
    (testTree index).printsAlone = true := by
  unfold testTree maskTree
  split <;>
    simp [ExprTree.printsAlone, ExprTree.isPrintable, ExprTree.printedNesting,
      numberTree, nestingLimit, isName_maskParameter, ExprTree.endType?]

section

variable {name : String} {default : ExprTree} {index : Nat}

theorem standalone_assign (standalone : default.Standalone) :
    (ExprTree.assign none (.identifier name) default).Standalone where
  grammatical := ⟨rfl, rfl, trivial, standalone.grammatical⟩
  shallow := by
    simpa [ExprTree.nesting] using standalone.shallow
  unmistaken after inert := ⟨trivial, standalone.unmistaken after inert⟩

/-- Words that start other statements are no names. -/
theorem startsOtherStatement_ofWord (named : isName name = true) :
    startsOtherStatement (.ofWord name) = false := by
  have contextual := (Bool.and_eq_true_iff.mp named).2
  unfold TokenKind.ofWord
  split
  · next word found =>
      rw [found] at contextual
      cases word <;> first | rfl | cases contextual
  · rfl

theorem grammatical_guardTree (named : isName name = true)
    (standalone : default.Standalone) (small : index < Mask.width) :
    (guardTree index name default).Grammatical := by
  refine ⟨standalone_testTree small, standalone_assign standalone, ?_⟩
  rintro kind ⟨⟩
  exact startsOtherStatement_ofWord named

theorem isPrintable_guardTree (named : isName name = true)
    (prints : default.printsAlone = true) :
    (guardTree index name default).isPrintable = true := by
  obtain ⟨printable, shallow⟩ := ExprTree.printsAlone_iff.mp prints
  have assigned : (ExprTree.assign none (.identifier name)
      default).printsAlone = true := by
    simpa [ExprTree.printsAlone, ExprTree.isPrintable, ExprTree.printedNesting,
      named, printable] using shallow
  simp [guardTree, StmtTree.isPrintable, printsAlone_testTree, assigned]

end

/-- The guards of parameters can stand before statements. -/
theorem grammatical_guardTrees {params : List SlotTree} {index : Nat}
    {statements : List StmtTree}
    (grammatical : ∀ param ∈ params,
      param.Grammatical ∧ isName param.name = true)
    (few : index + params.length ≤ Mask.width)
    (others : StmtTree.AllGrammatical statements) :
    StmtTree.AllGrammatical (guardTrees index params ++ statements) := by
  induction params generalizing index with
  | nil => exact others
  | cons param rest inductionHypothesis =>
      obtain ⟨first, later⟩ := List.forall_mem_cons.mp grammatical
      rw [List.length_cons] at few
      have further := @inductionHypothesis (index + 1) later (by omega)
      rw [guardTrees]
      split
      · exact further
      · next default given =>
          exact ⟨grammatical_guardTree first.2 (first.1.initializer _ given)
            (by omega), further⟩

theorem isPrintable_guardTrees {params : List SlotTree} (index : Nat)
    {statements : List StmtTree}
    (named : ∀ param ∈ params, isName param.name = true)
    (printable : params.all SlotTree.isPrintable = true)
    (others : StmtTree.arePrintable statements = true) :
    StmtTree.arePrintable (guardTrees index params ++ statements) = true := by
  induction params generalizing index with
  | nil => exact others
  | cons param rest inductionHypothesis =>
      obtain ⟨firstNamed, laterNamed⟩ := List.forall_mem_cons.mp named
      obtain ⟨first, later⟩ := Bool.and_eq_true_iff.mp printable
      have further := inductionHypothesis (index + 1) laterNamed later
      rw [guardTrees]
      split
      · exact further
      · next default given =>
          have prints := (Bool.and_eq_true_iff.mp first).2
          rw [given] at prints
          exact Bool.and_eq_true_iff.mpr
            ⟨isPrintable_guardTree firstNamed prints, further⟩

end Masking

/-! ## Functions -/

/-- A parameter that has lost its default. -/
def SlotTree.bare (tree : SlotTree) : SlotTree :=
  { tree with initializer := none }

namespace FunctionTree

/-- A function that has lost its defaults. -/
def bare (tree : FunctionTree) : FunctionTree :=
  { tree with params := tree.params.map SlotTree.bare }

/-- A function with a mask in place of its defaults. -/
def masked (tree : FunctionTree) : FunctionTree :=
  { tree with
    params := tree.params.map SlotTree.bare ++
      [⟨maskParameter, .named [maskType] [], none⟩]
    body := tree.body.map fun statements =>
      Masking.guardTrees 0 tree.params ++ statements }

/-- A function that stands in no class and can be printed. -/
structure Prints (tree : FunctionTree) : Prop where
  topLevel : tree.TopLevel
  printable : tree.isPrintable = true

theorem Prints.bare {tree : FunctionTree} (prints : tree.Prints) :
    tree.bare.Prints where
  topLevel :=
    { prints.topLevel with
      grammatical :=
        { prints.topLevel.grammatical with
          params := by
            refine List.forall_mem_map.mpr fun param member => ?_
            obtain ⟨grammatical, named⟩ :=
              prints.topLevel.grammatical.params param member
            exact ⟨{ grammatical with initializer := nofun }, named⟩ } }
  printable := by
    obtain ⟨decorators, params, returnType, body⟩ :=
      isPrintable_iff.mp prints.printable
    refine isPrintable_iff.mpr ⟨decorators, ?_, returnType, body⟩
    rw [FunctionTree.bare, List.all_map]
    refine List.all_eq_true.mpr fun param member => ?_
    have printed := List.all_eq_true.mp params param member
    exact Bool.and_eq_true_iff.mpr ⟨(Bool.and_eq_true_iff.mp printed).1, rfl⟩

theorem Prints.masked {tree : FunctionTree} (prints : tree.Prints)
    (hasBody : tree.body.isSome = true)
    (few : tree.params.length ≤ parameterLimit) : tree.masked.Prints := by
  obtain ⟨statements, body⟩ := Option.isSome_iff_exists.mp hasBody
  have bare := prints.bare
  obtain ⟨grammatical, named, external, declared⟩ := prints.topLevel
  obtain ⟨decorators, params, returnType, bodyPrints⟩ :=
    isPrintable_iff.mp prints.printable
  obtain ⟨-, bareParams, -, -⟩ := isPrintable_iff.mp bare.printable
  have maskGrammatical : SlotTree.Grammatical
      ⟨maskParameter, .named [maskType] [], none⟩ :=
    ⟨by decide, ⟨by decide, by decide, trivial⟩, nofun⟩
  refine ⟨⟨⟨grammatical.name, grammatical.decorators, ?_,
    grammatical.returnType, ?_⟩, named, external, ?_⟩, ?_⟩
  · intro param member
    rcases List.mem_append.mp member with own | isMask
    · exact bare.topLevel.grammatical.params param own
    · cases List.mem_singleton.mp isMask
      exact ⟨maskGrammatical, by decide⟩
  · rw [FunctionTree.masked, body]
    rintro _ ⟨⟩
    refine Masking.grammatical_guardTrees grammatical.params ?_
      (grammatical.body statements body)
    exact Nat.le_trans (by omega) (Nat.succ_le_succ few)
  · intro isDeclared
    rw [declared isDeclared] at body
    cases body
  · refine isPrintable_iff.mpr ⟨decorators, ?_, returnType, ?_⟩
    · rw [FunctionTree.masked, List.all_append]
      exact Bool.and_eq_true_iff.mpr ⟨bareParams, by decide⟩
    · rw [body] at bodyPrints
      rw [FunctionTree.masked, body]
      exact Masking.isPrintable_guardTrees 0
        (fun param member => (grammatical.params param member).2) params
        bodyPrints

end FunctionTree

/-! ## Programs -/

/-- An item that can be printed. -/
structure ItemTree.Prints (tree : ItemTree) : Prop where
  grammatical : tree.Grammatical
  printable : tree.isPrintable = true

/-- A program that can be printed. -/
structure ProgramTree.Prints (tree : ProgramTree) : Prop where
  grammatical : tree.Grammatical
  printable : tree.isPrintable = true

theorem ProgramTree.prints_iff {tree : ProgramTree} :
    tree.Prints ↔ ∀ item ∈ tree.items, item.Prints := by
  constructor
  · exact fun prints item member => ⟨prints.grammatical item member,
      List.all_eq_true.mp prints.printable item member⟩
  · exact fun prints => ⟨fun item member => (prints item member).grammatical,
      List.all_eq_true.mpr fun item member => (prints item member).printable⟩

namespace Masking

variable {selected : FunctionDecl → Bool} {arena : Arena}

theorem tree_withoutInitializers (function : FunctionDecl) :
    (withoutInitializers function).tree arena = (function.tree arena).bare := by
  simp [FunctionDecl.tree, withoutInitializers, FunctionTree.bare, Param.tree,
    withoutInitializer, SlotTree.bare]

theorem tree_guarded (closed : arena.Closed) {function : FunctionDecl}
    {body : Block} {ids : List StmtId} (hasBody : function.body = some body)
    (guards : Guards arena 0 function.params ids) :
    (guarded function body ids).tree arena =
      (function.tree arena).masked := by
  simp [FunctionDecl.tree, guarded, FunctionTree.masked, Param.tree,
    withoutInitializer, SlotTree.bare, maskParam, hasBody,
    guards.stmtTrees closed]
  rfl

theorem MaskedFunction.prints (closed : arena.Closed)
    {function masked : FunctionDecl}
    (masks : MaskedFunction selected arena function masked)
    (prints : (function.tree arena).Prints) : (masked.tree arena).Prints := by
  cases masks with
  | kept => exact prints
  | host =>
      rw [tree_withoutInitializers]
      exact prints.bare
  | guarded _ _ hasBody few _ guards =>
      rw [tree_guarded closed hasBody guards]
      refine prints.masked ?_ ?_
      · simp [FunctionDecl.tree, hasBody]
      · simpa [FunctionDecl.tree] using few

theorem MaskedItem.prints (closed : arena.Closed) {item masked : Item}
    (masks : MaskedItem selected arena item masked)
    (prints : (item.tree arena).Prints) : (masked.tree arena).Prints := by
  cases masks with
  | function masks =>
      have printed := masks.prints closed ⟨prints.grammatical, prints.printable⟩
      exact ⟨printed.topLevel, printed.printable⟩
  | other => exact prints

/-- What masking makes of a program that can be printed can be printed. -/
theorem MaskedModule.prints {context : MaskingContext} {source target : Program}
    (masks : MaskedModule context source target) (closed : source.Closed)
    (targetClosed : target.Closed) (prints : source.tree.Prints) :
    target.tree.Prints := by
  cases masks with
  | library => exact prints
  | own _ masks =>
      rw [ProgramTree.prints_iff] at prints ⊢
      have kept : ∀ item ∈ source.items,
          item.tree target.arena = item.tree source.arena :=
        fun item member => masks.arena.item_eq closed.arena fun point inItem =>
          closed.points point (List.mem_flatMap.mpr ⟨item, member, inItem⟩)
      refine List.forall_mem_map.mpr fun masked member => ?_
      obtain ⟨item, inSource, pair⟩ := exists_of_mem_right masks.items member
      refine pair.prints targetClosed.arena ?_
      rw [kept item inSource]
      exact prints _ (List.mem_map_of_mem inSource)

theorem MaskedModule.frame {context : MaskingContext} {source target : Program}
    (masks : MaskedModule context source target) :
    target.path = source.path ∧ target.kind = source.kind := by
  cases masks with
  | library => exact ⟨rfl, rfl⟩
  | own _ masks => exact ⟨masks.path, masks.kind⟩

end Masking

end PluginSurface
