import PluginSurface.Proofs.Grammar.PrintedStatements
import PluginSurface.Proofs.Grammar.Spelling

/-!
# Texts of expressions

The text of a printable expression spells the tokens that the expression is made
of.
-/

namespace PluginSurface

open Grammar Scan

namespace ExprTree

/-! ## First characters -/

theorem exists_text_eq (tree : ExprTree) :
    ∃ more, tree.text = tree.leading.text ++ more := by
  fun_induction leading tree with
  | case8 => exact ⟨"", by simp⟩
  | _ =>
    next inductionHypothesis =>
      obtain ⟨more, same⟩ := inductionHypothesis
      exact ⟨_, by simp only [text, same, String.append_assoc]; rfl⟩

theorem grammatical_leading {tree : ExprTree} (grammatical : tree.Grammatical) :
    tree.leading.Grammatical := by
  fun_induction leading tree <;> simp_all [Grammatical]

/-- Whether a text starts with something else than an equals sign. -/
def startsPlain (text : String) : Bool :=
  text.toList.head?.any (· != '=')

theorem startsPlain_append {first : String} (plain : startsPlain first = true)
    (second : String) : startsPlain (first ++ second) = true := by
  unfold startsPlain at plain ⊢
  rw [String.toList_append, List.head?_append]
  cases head : first.toList.head? with
  | none =>
      rw [head] at plain
      cases plain
  | some char =>
      rw [head] at plain
      exact plain

theorem startsPlain_word {word : String} (isWord : isWord word = true) :
    startsPlain word = true := by
  obtain ⟨first, front, text, starts⟩ := exists_isWordStart isWord
  simp only [startsPlain, text, List.head?_cons, Option.any_some, bne_iff_ne]
  rintro rfl
  cases starts

theorem startsPlain_number {kind : TokenKind} (isNumber : kind.IsNumber) :
    startsPlain kind.text = true := by
  obtain ⟨char, front, text, starts, -⟩ := munches_number isNumber
    endsNumber_nil
  simp only [startsPlain, text, List.head?_cons, Option.any_some, bne_iff_ne]
  exact (startsNumber_only starts).2.2.2

theorem startsPlain_text {tree : ExprTree} (grammatical : tree.Grammatical)
    (printable : tree.isPrintable = true) : startsPlain tree.text = true := by
  obtain ⟨more, same⟩ := tree.exists_text_eq
  have leads := tree.isLeading_leading
  have fits := grammatical_leading grammatical
  have named := isPrintable_leading printable
  rw [same]
  refine startsPlain_append ?_ more
  generalize tree.leading = first at leads fits named
  cases first with
  | bool value => cases value <;> decide
  | integer value spelling => exact startsPlain_number fits
  | float value spelling => exact startsPlain_number fits
  | string content =>
      rw [text, startsPlain, Print.toList_quote]
      rfl
  | array elements =>
      exact startsPlain_append (startsPlain_append (by decide) _) _
  | object entries =>
      cases entries with
      | nil => decide
      | cons entry others =>
          exact startsPlain_append (startsPlain_append (by decide) _) _
  | identifier name =>
      exact startsPlain_word (isWord_of_isName named)
  | new type arguments =>
      refine startsPlain_append (startsPlain_append (startsPlain_append
        (startsPlain_append ?_ _) _) _) _
      decide
  | unary operator operand =>
      rw [text]
      split
      · refine startsPlain_append (startsPlain_append (startsPlain_append
          ?_ _) _) _
        cases operator <;> decide
      · refine startsPlain_append ?_ _
        cases operator <;> decide
  | paren inner => exact startsPlain_append (startsPlain_append (by decide) _) _
  | call | member | index | binary | assign | conditional | cast => cases leads
  | _ => decide

/-! ## Expressions -/

/-- An expression whose text spells its tokens. -/
def SpellsText (tree : ExprTree) : Prop :=
  Spells Follows tree.text tree.kinds

theorem texts_eq_map (trees : List ExprTree) :
    texts trees = trees.map text := by
  induction trees with
  | nil => rfl
  | cons tree others inductionHypothesis =>
      rw [texts, inductionHypothesis, List.map_cons]

theorem entryTexts_eq_map (entries : List (String × ExprTree)) :
    entryTexts entries =
      entries.map fun entry => entry.1 ++ ": " ++ entry.2.text := by
  induction entries with
  | nil => rfl
  | cons entry others inductionHypothesis =>
      rw [entryTexts, inductionHypothesis, List.map_cons]

theorem spells_array {elements : List ExprTree}
    (spells : ∀ tree ∈ elements, tree.SpellsText) :
    (array elements).SpellsText := by
  have closed := ((Spells.mark .openBracket rfl (by decide)).andThen
    (.joined spells)).before (.mark .closeBracket rfl (by decide)) (by decide)
  exact closed.anywhere.of_eq (by rw [text, texts_eq_map]; rfl)
    (by simp [kinds, kindsOfAll_eq_map])

theorem spells_object {entries : List (String × ExprTree)}
    (words : ∀ entry ∈ entries, isWord entry.1 = true)
    (spells : ∀ entry ∈ entries, entry.2.SpellsText) :
    (object entries).SpellsText := by
  cases entries with
  | nil =>
      exact ((Spells.mark .openBrace rfl (by decide)).andThen
        (.mark .closeBrace rfl (by decide))).anywhere
  | cons entry others =>
      have listed := Spells.listed fun part member =>
        ((Spells.word (words part member)).before .colon (by decide)).andThen
          (spells part member)
      refine listed.anywhere.of_eq ?_ ?_
      · rw [text, entryTexts_eq_map]
        exact List.cons_ne_nil entry others
      · rw [kinds, kindsOfEntries_eq_map]
        rfl

/-- Arguments in parentheses. -/
theorem spells_arguments {first : String} {kinds : List TokenKind}
    {arguments : List ExprTree} (spells : Spells Follows first kinds)
    (each : ∀ tree ∈ arguments, tree.SpellsText) :
    Spells Anything (first ++ "(" ++ Print.joined (texts arguments) ++ ")")
      (kinds ++ .symbol .openParen :: joinedKinds (kindsOfAll arguments) ++
        [.symbol .closeParen]) := by
  rw [texts_eq_map, kindsOfAll_eq_map]
  exact spells.parenthesized each

theorem spells_new {type : TypeShape} {arguments : List ExprTree}
    (grammatical : type.Grammatical)
    (spells : ∀ tree ∈ arguments, tree.SpellsText) :
    (new type arguments).SpellsText :=
  (spells_arguments ((Spells.leading .newWord).andThen (.type grammatical))
    spells).anywhere.of_eq rfl (by simp [kinds])

theorem spells_call {callee : ExprTree} {types : List TypeShape}
    {arguments : List ExprTree} (grammatical : TypeShape.AllGrammatical types)
    (spells : callee.SpellsText)
    (argumentsSpell : ∀ tree ∈ arguments, tree.SpellsText) :
    (call callee types arguments).SpellsText :=
  (spells_arguments (Spells.typeArguments grammatical spells)
    argumentsSpell).anywhere.of_eq rfl (by simp [kinds])

theorem spells_member {target : ExprTree} {property : String}
    (spells : target.SpellsText) (isWord : isWord property = true) :
    (member target property).SpellsText :=
  (spells.append (.behindDot isWord) fun chars _ =>
    Spells.follows_dot isWord chars).of_eq (String.append_assoc ..) rfl

theorem spells_index {target position : ExprTree} (spells : target.SpellsText)
    (positionSpells : position.SpellsText) :
    (index target position).SpellsText := by
  have opened := spells.before (.mark .openBracket rfl (by decide)) (by decide)
  have closed := (opened.andThen positionSpells).before
    (.mark .closeBracket rfl (by decide)) (by decide)
  exact closed.anywhere.of_eq rfl (by simp [kinds])

theorem spells_paren {inner : ExprTree} (spells : inner.SpellsText) :
    (paren inner).SpellsText := by
  have closed := ((Spells.mark .openParen rfl (by decide)).andThen
    spells).before (.mark .closeParen rfl (by decide)) (by decide)
  exact closed.anywhere.of_eq rfl (by simp [kinds])

/-! ### Operators -/

/-- A symbol with spaces around it between two texts. -/
theorem spells_operation {first second : String} {kinds others : List TokenKind}
    (spells : Spells Follows first kinds) (mark : Symbol)
    (further : Spells Follows second others) :
    Spells Follows (first ++ " " ++ mark.text ++ " " ++ second)
      (kinds ++ .symbol mark :: others) := by
  have whole := (spells.before (.spaced mark)
    (breaks_append (breaks_append (by decide) _) _)).andThen further
  exact whole.of_eq (by simp only [String.append_assoc]) (by simp)

theorem text_binarySymbol (operator : BinaryOperator) :
    operator.symbol.text = operator.text := by
  cases operator <;> rfl

theorem text_unarySymbol (operator : UnaryOperator) :
    operator.symbol.text = operator.text := by
  cases operator <;> rfl

theorem assignmentMark_eq {operator : Option BinaryOperator}
    (assigns : assignmentOperator? (.symbol (assignmentSymbol operator)) =
      some operator) :
    Print.assignmentMark operator =
      " " ++ (assignmentSymbol operator).text ++ " " := by
  cases operator with
  | none => rfl
  | some operator => cases operator <;> first | rfl | cases assigns

theorem spells_binary {left right : ExprTree} (operator : BinaryOperator)
    (leftSpells : left.SpellsText) (rightSpells : right.SpellsText) :
    (binary operator left right).SpellsText :=
  (spells_operation leftSpells operator.symbol rightSpells).of_eq
    (by rw [text, text_binarySymbol]) (by rw [kinds])

theorem spells_assign {operator : Option BinaryOperator}
    {target value : ExprTree}
    (assigns : assignmentOperator? (.symbol (assignmentSymbol operator)) =
      some operator)
    (targetSpells : target.SpellsText) (valueSpells : value.SpellsText) :
    (assign operator target value).SpellsText :=
  (spells_operation targetSpells (assignmentSymbol operator) valueSpells).of_eq
    (by simp only [text, assignmentMark_eq assigns, String.append_assoc])
    (by rw [kinds])

theorem spells_conditional {condition whenTrue whenFalse : ExprTree}
    (spells : condition.SpellsText) (trueSpells : whenTrue.SpellsText)
    (falseSpells : whenFalse.SpellsText) :
    (conditional condition whenTrue whenFalse).SpellsText :=
  (spells_operation (spells_operation spells .question trueSpells) .colon
    falseSpells).of_eq (by simp only [text, String.append_assoc]; rfl)
      (by rw [kinds])

theorem spells_cast {operand : ExprTree} {type : TypeShape}
    (spells : operand.SpellsText) (grammatical : type.Grammatical) :
    (cast operand type).SpellsText := by
  have whole := (spells.before (.between .asWord) (by decide)).andThen
    (.type grammatical)
  exact whole.of_eq (by simp only [text, String.append_assoc]; rfl)
    (by simp [kinds])

theorem goesOn_unarySymbol {operator : UnaryOperator} {next : Char}
    (goes : goesOn operator.symbol next = true) : next = '=' := by
  cases operator <;>
    simp_all [UnaryOperator.symbol, goesOn, Symbol.all, Symbol.text,
      List.isPrefixOf]

/-- A prefix operator is taken by itself in front of what is no equals sign. -/
theorem spells_prefixed {operand : String} {kinds : List TokenKind}
    (operator : UnaryOperator) (plain : startsPlain operand = true)
    (spells : Spells Follows operand kinds) :
    Spells Follows (operator.text ++ operand)
      (.symbol operator.symbol :: kinds) := by
  intro chars behind follows read
  obtain ⟨char, spelled, notSlash, notPoint, notDigit⟩ :
      ∃ char, operator.symbol.text.toList = [char] ∧ char ≠ '/' ∧ char ≠ '.' ∧
        char.isDigit = false := by
    cases operator <;> exact ⟨_, rfl, by decide⟩
  have further := spells follows read
  rw [String.toList_append, List.append_assoc, ← text_unarySymbol, spelled]
  refine .symbol operator.symbol char [] spelled notSlash
    ((startsNumber_cons notPoint _).trans notDigit) (fun next front => ?_) further
  refine Bool.eq_false_iff.mpr fun goes => ?_
  rw [startsPlain] at plain
  cases toList : operand.toList with
  | nil =>
      rw [toList] at plain
      cases plain
  | cons first more =>
      rw [toList] at plain front
      cases front
      simp [goesOn_unarySymbol goes] at plain

theorem spells_unary {operand : ExprTree} (operator : UnaryOperator)
    (plain : startsPlain operand.text = true) (spells : operand.SpellsText) :
    (unary operator operand).SpellsText := by
  cases isUnary : operand.isUnary with
  | true =>
      have parenthesized : startsPlain (paren operand).text = true :=
        startsPlain_append (startsPlain_append (by decide) _) _
      refine (spells_prefixed operator parenthesized (spells_paren spells)).of_eq
        ?_ ?_
      · simp only [text, isUnary, if_true, String.append_assoc]
      · rw [kinds, kinds, if_pos isUnary]
  | false =>
      refine (spells_prefixed operator plain spells).of_eq ?_ ?_
      · simp [text, isUnary]
      · simp [kinds, isUnary]

/-! ### All expressions -/

mutual

theorem spellsText (tree : ExprTree) (grammatical : tree.Grammatical)
    (printable : tree.isPrintable = true) : tree.SpellsText := by
  cases tree with
  | null => exact .keyword .nullWord
  | bool value =>
      cases value
      · exact .keyword .falseWord
      · exact .keyword .trueWord
  | integer value spelling => exact .number grammatical
  | float value spelling => exact .number grammatical
  | string content => exact (Spells.quoted content).anywhere
  | array elements =>
      exact spells_array (allSpellText elements grammatical printable)
  | object entries =>
      have spells := entriesSpellText entries grammatical printable
      exact spells_object (fun entry member => (spells entry member).1)
        fun entry member => (spells entry member).2
  | identifier name => exact .word (isWord_of_isName printable)
  | this => exact .keyword .thisWord
  | new type arguments =>
      exact spells_new grammatical.1 (allSpellText arguments grammatical.2
        (Bool.and_eq_true_iff.mp printable).2)
  | call callee types arguments =>
      obtain ⟨-, ofCallee, ofTypes, -, ofArguments⟩ := grammatical
      obtain ⟨calleePrints, -, argumentsPrint⟩ := isPrintable_call_iff.mp printable
      exact spells_call ofTypes (spellsText callee ofCallee calleePrints)
        (allSpellText arguments ofArguments argumentsPrint)
  | member target property =>
      exact spells_member (spellsText target grammatical.2.1 printable)
        grammatical.2.2
  | index target position =>
      obtain ⟨targetPrints, positionPrints⟩ := Bool.and_eq_true_iff.mp printable
      exact spells_index (spellsText target grammatical.2.1 targetPrints)
        (spellsText position grammatical.2.2 positionPrints)
  | binary operator left right =>
      obtain ⟨-, -, -, ofLeft, ofRight, -⟩ := grammatical
      obtain ⟨leftPrints, rightPrints, -⟩ := isPrintable_binary_iff.mp printable
      exact spells_binary operator (spellsText left ofLeft leftPrints)
        (spellsText right ofRight rightPrints)
  | unary operator operand =>
      exact spells_unary operator (startsPlain_text grammatical.2 printable)
        (spellsText operand grammatical.2 printable)
  | assign operator target value =>
      obtain ⟨assigns, -, ofTarget, ofValue⟩ := grammatical
      obtain ⟨targetPrints, valuePrints⟩ := Bool.and_eq_true_iff.mp printable
      exact spells_assign assigns (spellsText target ofTarget targetPrints)
        (spellsText value ofValue valuePrints)
  | conditional condition whenTrue whenFalse =>
      obtain ⟨-, ofCondition, ofTrue, ofFalse⟩ := grammatical
      obtain ⟨prints, falsePrints⟩ := Bool.and_eq_true_iff.mp printable
      obtain ⟨conditionPrints, truePrints⟩ := Bool.and_eq_true_iff.mp prints
      exact spells_conditional (spellsText condition ofCondition conditionPrints)
        (spellsText whenTrue ofTrue truePrints)
        (spellsText whenFalse ofFalse falsePrints)
  | cast operand type =>
      obtain ⟨-, -, ofOperand, ofType⟩ := grammatical
      exact spells_cast
        (spellsText operand ofOperand (Bool.and_eq_true_iff.mp printable).1) ofType
  | paren inner => exact spells_paren (spellsText inner grammatical printable)

theorem allSpellText (trees : List ExprTree)
    (grammatical : AllGrammatical trees)
    (printable : arePrintable trees = true) :
    ∀ tree ∈ trees, tree.SpellsText := by
  cases trees with
  | nil => simp
  | cons tree others =>
      obtain ⟨firstPrints, othersPrint⟩ := Bool.and_eq_true_iff.mp printable
      exact List.forall_mem_cons.mpr
        ⟨spellsText tree grammatical.1 firstPrints,
          allSpellText others grammatical.2 othersPrint⟩

theorem entriesSpellText (entries : List (String × ExprTree))
    (grammatical : EntriesGrammatical entries)
    (printable : entriesPrintable entries = true) :
    ∀ entry ∈ entries, isWord entry.1 = true ∧ entry.2.SpellsText := by
  cases entries with
  | nil => simp
  | cons entry others =>
      obtain ⟨key, value⟩ := entry
      obtain ⟨firstPrints, othersPrint⟩ := Bool.and_eq_true_iff.mp printable
      obtain ⟨isKey, valuePrints⟩ := Bool.and_eq_true_iff.mp firstPrints
      exact List.forall_mem_cons.mpr
        ⟨⟨isKey, spellsText value grammatical.1 valuePrints⟩,
          entriesSpellText others grammatical.2 othersPrint⟩

end

end ExprTree

end PluginSurface
