import PluginSurface.Optional.Default
import PluginSurface.Proofs.Eval.Costs
import PluginSurface.Proofs.Grammar.Closure
import PluginSurface.Proofs.Syntax.Depiction

/-!
# Recorded defaults are computed

What is recorded of a default is read off its literals; the program computes the
default instead. The value it comes to reads as the recorded document again, up
to whole numbers of more than 63 bits, which the program holds as the signed
numbers of the same word.
-/

namespace PluginSurface

/-! ## Numbers of a word -/

/-- A recorded whole number and the one that a program holds in 64 bits. -/
structure SameWord (recorded computed : Int) : Prop where
  congruent :
    computed % 18446744073709551616 = recorded % 18446744073709551616
  equal : -9223372036854775808 ≤ recorded → recorded < 9223372036854775808 →
    computed = recorded

theorem sameWord_bmod (number : Int) :
    SameWord number (number.bmod 18446744073709551616) where
  congruent := Int.bmod_emod
  equal least greatest := Int.bmod_eq_of_le (by omega) (by omega)

theorem toInt_literal (value : UInt64) :
    value.toInt64.toInt = (value.toNat : Int).bmod 18446744073709551616 :=
  BitVec.toInt_eq_toNat_bmod value.toBitVec

theorem sameWord_literal (value : UInt64) :
    SameWord value.toNat value.toInt64.toInt := by
  rw [toInt_literal]
  exact sameWord_bmod _

theorem sameWord_negated (value : UInt64) :
    SameWord (-value.toNat) (-value.toInt64).toInt := by
  have negated : (-value.toInt64).toInt =
      (-value.toInt64.toInt).bmod 18446744073709551616 :=
    Int64.toInt_neg _
  rw [negated, toInt_literal, Int.bmod_neg_bmod]
  exact sameWord_bmod _

/-! ## Documents -/

/-- Two documents of one structure that agree in all but their whole numbers,
which are the same in 64 bits. -/
inductive Json.Congruent : Json → Json → Prop where
  | null : Congruent .null .null
  | bool (value : Bool) : Congruent (.bool value) (.bool value)
  | whole {recorded computed : Int} (same : SameWord recorded computed) :
      Congruent (.number (.whole recorded)) (.number (.whole computed))
  | real (value : Float) :
      Congruent (.number (.real value)) (.number (.real value))
  | string (content : String) : Congruent (.string content) (.string content)
  | array {recorded computed : List Json}
      (items : List.Forall₂ Congruent recorded computed) :
      Congruent (.array recorded) (.array computed)
  | object {recorded computed : List (String × Json)}
      (keys : recorded.map Prod.fst = computed.map Prod.fst)
      (values : List.Forall₂ Congruent (recorded.map Prod.snd)
        (computed.map Prod.snd)) :
      Congruent (.object recorded) (.object computed)

theorem Json.congruent_object {recorded computed : List (String × Json)}
    (members : List.Forall₂ (Dict.SameKey Congruent) recorded computed) :
    Congruent (.object recorded) (.object computed) := by
  apply Congruent.object
  · rw [← List.forall₂_eq_eq_eq, List.forall₂_map_left_iff,
      List.forall₂_map_right_iff]
    exact members.imp fun _ _ same => same.1
  · rw [List.forall₂_map_left_iff, List.forall₂_map_right_iff]
    exact members.imp fun _ _ same => same.2

/-- Two relations that meet in the middle, item by item. -/
theorem exists_forall₂_between {First Middle Last : Type}
    {before : First → Middle → Prop} {after : Middle → Last → Prop}
    {firsts : List First} {lasts : List Last}
    (each : List.Forall₂ (fun first last => ∃ middle,
      before first middle ∧ after middle last) firsts lasts) :
    ∃ middles, List.Forall₂ before firsts middles ∧
      List.Forall₂ after middles lasts := by
  induction each with
  | nil => exact ⟨[], .nil, .nil⟩
  | cons first _ inductionHypothesis =>
      obtain ⟨middle, beforeFirst, afterFirst⟩ := first
      obtain ⟨middles, beforeRest, afterRest⟩ := inductionHypothesis
      exact ⟨middle :: middles, .cons beforeFirst beforeRest,
        .cons afterFirst afterRest⟩

theorem Dict.exists_forall₂_between {First Middle Last : Type}
    {before : First → Middle → Prop} {after : Middle → Last → Prop}
    {firsts : List (String × First)} {lasts : List (String × Last)}
    (each : List.Forall₂ (SameKey fun first last => ∃ middle,
      before first middle ∧ after middle last) firsts lasts) :
    ∃ middles, List.Forall₂ (SameKey before) firsts middles ∧
      List.Forall₂ (SameKey after) middles lasts := by
  apply PluginSurface.exists_forall₂_between
  refine each.imp fun first last same => ?_
  obtain ⟨sameKey, middle, isBefore, isAfter⟩ := same
  exact ⟨(first.1, middle), ⟨rfl, isBefore⟩, ⟨sameKey, isAfter⟩⟩

namespace Value

theorem jsonItems?_of_forall₂ {values : List Value} {items : List Json}
    (each : List.Forall₂ (fun value item => value.json? = some item)
      values items) : jsonItems? values = some items := by
  induction each with
  | nil => rfl
  | cons first _ inductionHypothesis =>
      rw [jsonItems?, first, inductionHypothesis]
      rfl

theorem jsonFields?_of_forall₂ {fields : List (String × Value)}
    {members : List (String × Json)}
    (each : List.Forall₂ (Dict.SameKey fun value member =>
      value.json? = some member) fields members) :
    jsonFields? fields = some members := by
  induction each with
  | nil => rfl
  | @cons field member _ _ first _ inductionHypothesis =>
      obtain ⟨_, _⟩ := field
      obtain ⟨_, _⟩ := member
      obtain ⟨rfl, known⟩ := first
      rw [jsonFields?, known, inductionHypothesis]
      rfl

/-- The value reads as a document that is congruent to a recorded one. -/
def Shows (value : Value) (recorded : Json) : Prop :=
  ∃ computed, value.json? = some computed ∧ recorded.Congruent computed

theorem shows_float {value : Float} {recorded : Json}
    (found : ExprTree.finiteJson? value = some recorded) :
    (float value).Shows recorded := by
  unfold ExprTree.finiteJson? at found
  split at found
  · rename_i finite
    cases found
    exact ⟨.number (.real value), if_pos finite, .real value⟩
  · cases found

theorem shows_array {values : List Value} {recorded : List Json}
    (each : List.Forall₂ Shows values recorded) :
    (array values).Shows (.array recorded) := by
  obtain ⟨items, reads, congruent⟩ := exists_forall₂_between each
  have known := jsonItems?_of_forall₂ reads
  refine ⟨.array items, ?_, .array congruent.flip⟩
  rw [json?, known]
  rfl

theorem shows_object {className : Option String}
    {fields : List (String × Value)} {recorded : List (String × Json)}
    (each : List.Forall₂ (Dict.SameKey Shows) fields recorded) :
    (object className fields).Shows (.object recorded) := by
  obtain ⟨members, reads, congruent⟩ := Dict.exists_forall₂_between each
  have known := jsonFields?_of_forall₂ reads
  refine ⟨.object members, ?_, Json.congruent_object ?_⟩
  · rw [json?, known]
    rfl
  · exact congruent.flip.imp fun _ _ same => ⟨same.1.symm, same.2⟩

end Value

namespace ExprTree

theorem forall₂_of_jsonItems? {trees : List ExprTree} {items : List Json}
    (known : jsonItems? trees = some items) :
    List.Forall₂ (fun tree item => tree.json? = some item) trees items := by
  induction trees generalizing items with
  | nil =>
      cases known
      exact .nil
  | cons tree rest inductionHypothesis =>
      rw [jsonItems?] at known
      simp only [Option.bind_eq_bind, Option.bind_eq_some_iff] at known
      obtain ⟨item, first, others, restKnown, same⟩ := known
      cases same
      exact .cons first (inductionHypothesis restKnown)

theorem forall₂_of_jsonEntries? {entries : List (String × ExprTree)}
    {members : List (String × Json)}
    (known : jsonEntries? entries = some members) :
    List.Forall₂ (Dict.SameKey fun tree member => tree.json? = some member)
      entries members := by
  induction entries generalizing members with
  | nil =>
      cases known
      exact .nil
  | cons entry rest inductionHypothesis =>
      obtain ⟨key, tree⟩ := entry
      rw [jsonEntries?] at known
      simp only [Option.bind_eq_bind, Option.bind_eq_some_iff] at known
      obtain ⟨member, first, others, restKnown, same⟩ := known
      cases same
      exact .cons ⟨rfl, first⟩ (inductionHypothesis restKnown)

/-- A folded sign is recorded unless the number is below all numbers of a
word. -/
theorem json?_negated {value : UInt64} {spelling : String} {recorded : Json}
    (found : (unary .negate (integer value spelling)).json? = some recorded) :
    recorded = Json.ofInt (-value.toNat) := by
  simp only [json?, isNumber, if_true, DefaultLiteral.ofTree,
    DefaultLiteral.negated] at found
  by_cases inWord : DefaultLiteral.leastInteger ≤ -(value.toNat : Int)
  · rw [if_pos inWord] at found
    exact (Option.some.inj found).symm
  · rw [if_neg inWord] at found
    cases found

end ExprTree

/-! ## Expressions -/

namespace Program

variable {program : Program} {id : ExprId} {recorded : Json}

/-- In every environment, an expression comes to a value that shows what is
recorded of it. -/
def Reproduces (program : Program) (id : ExprId) (recorded : Json) : Prop :=
  ∃ value, program.HasValue (fun _ => True) id value ∧ value.Shows recorded

theorem reproduces_literal {literal : Literal} {value : Value}
    (node : (program.arena.expr id).node = .literal literal)
    (known : ∀ run, Interpreter.evalLiteral run literal = pure value)
    (shows_ : value.Shows recorded) : program.Reproduces id recorded :=
  ⟨value, (computes_literal node known).hasValue, shows_⟩

theorem reproduces_array {elements : List ExprId} {items : List Json}
    (node : (program.arena.expr id).node = .literal (.array elements))
    (each : List.Forall₂ program.Reproduces elements items) :
    program.Reproduces id (.array items) := by
  obtain ⟨values, computed, shown⟩ := exists_forall₂_between each
  exact ⟨.array values, hasValue_array node computed,
    Value.shows_array shown⟩

theorem reproduces_object {entries : List (Name × ExprId)}
    {members : List (String × Json)}
    (node : (program.arena.expr id).node = .literal (.object entries))
    (each : List.Forall₂ (fun entry => Dict.SameKey program.Reproduces
      (entry.1.text, entry.2)) entries members) :
    program.Reproduces id (.object (Dict.ofEntries members)) := by
  rw [← List.forall₂_map_left_iff (f := fun entry : Name × ExprId =>
    (entry.1.text, entry.2))] at each
  obtain ⟨fields, computed, shown⟩ := Dict.exists_forall₂_between each
  rw [List.forall₂_map_left_iff] at computed
  exact ⟨.object none (Dict.ofEntries fields), hasValue_object node computed,
    Value.shows_object (Dict.forall₂_ofEntries shown)⟩

/-- A minus sign before a number is recorded with it and computed behind it. -/
theorem reproduces_negated {operand : ExprId}
    (closed : program.arena.Closed)
    (node : (program.arena.expr id).node = .unary .negate operand)
    (found : (ExprTree.unary .negate (program.arena.exprTree operand)).json? =
      some recorded) : program.Reproduces id recorded := by
  rw [closed.exprTree_eq] at found
  cases number : (program.arena.expr operand).node with
  | literal literal =>
      rw [number] at found
      cases literal with
      | integer value spelling =>
          have operandComputes : program.Computes (fun _ => True) 1 operand
              (.int value.toInt64) := computes_literal number fun _ => rfl
          have computes := operandComputes.unary node rfl
          have same := ExprTree.json?_negated found
          subst same
          exact ⟨.int (-value.toInt64), computes.hasValue, _, rfl,
            .whole (sameWord_negated value)⟩
      | float value spelling =>
          have operandComputes : program.Computes (fun _ => True) 1 operand
              (.float value) := computes_literal number fun _ => rfl
          have computes := operandComputes.unary node rfl
          exact ⟨.float (-value), computes.hasValue,
            Value.shows_float found⟩
      | _ => cases found
  | _ =>
      rw [number] at found
      cases found

/-- The parts of a node reproduce what is recorded of them, and so does the
node. -/
theorem reproduces_node (closed : program.arena.Closed)
    (parts : ∀ child ∈ (program.arena.expr id).node.children,
      ∀ recorded, (program.arena.exprTree child).json? = some recorded →
        program.Reproduces child recorded)
    (found : (program.arena.exprTree id).json? = some recorded) :
    program.Reproduces id recorded := by
  rw [closed.exprTree_eq] at found
  cases node : (program.arena.expr id).node with
  | literal literal =>
      rw [node] at found parts
      cases literal with
      | null =>
          cases found
          exact reproduces_literal node (fun _ => rfl) ⟨_, rfl, .null⟩
      | bool value =>
          cases found
          exact reproduces_literal node (fun _ => rfl) ⟨_, rfl, .bool value⟩
      | integer value spelling =>
          cases found
          exact reproduces_literal node (fun _ => rfl)
            ⟨_, rfl, .whole (sameWord_literal value)⟩
      | float value spelling =>
          exact reproduces_literal node (fun _ => rfl)
            (Value.shows_float found)
      | string content =>
          cases found
          exact reproduces_literal node (fun _ => rfl)
            ⟨_, rfl, .string content⟩
      | array elements =>
          obtain ⟨items, known, rfl⟩ := Option.map_eq_some_iff.mp found
          have each := ExprTree.forall₂_of_jsonItems? known
          rw [List.forall₂_map_left_iff] at each
          have reproduced := (List.forall₂_and_left _ _).mpr ⟨parts, each⟩
          exact reproduces_array node <| reproduced.imp
            fun _ _ both => both.1 _ both.2
      | object entries =>
          obtain ⟨members, known, rfl⟩ := Option.map_eq_some_iff.mp found
          have each := ExprTree.forall₂_of_jsonEntries? known
          rw [List.forall₂_map_left_iff] at each
          have ofEntry : ∀ entry ∈ entries, ∀ recorded,
              (program.arena.exprTree entry.2).json? = some recorded →
                program.Reproduces entry.2 recorded :=
            fun entry member => parts entry.2 (List.mem_map_of_mem member)
          have reproduced := (List.forall₂_and_left _ _).mpr ⟨ofEntry, each⟩
          exact reproduces_object node <| reproduced.imp
            fun _ _ both => ⟨both.2.1, both.1 _ both.2.2⟩
  | unary operator operand =>
      rw [node] at found
      cases operator with
      | negate => exact reproduces_negated closed node found
      | _ => cases found
  | _ =>
      rw [node] at found
      cases found

theorem reproduces_of_json? (closed : program.arena.Closed)
    (found : (program.arena.exprTree id).json? = some recorded) :
    program.Reproduces id recorded := by
  obtain ⟨index, same⟩ : ∃ index, id.index = index := ⟨_, rfl⟩
  induction index using Nat.strongRecOn generalizing id recorded with
  | ind index inductionHypothesis =>
      refine reproduces_node closed (fun child member value known => ?_) found
      have stored := Arena.has_of_child member
      have before := closed.child_lt stored member
      exact inductionHypothesis child.index (same ▸ before) known rfl

/-- In a parsed program, every expression that a document is recorded of
evaluates in every environment that has the gas for it. It changes nothing but
the gas, and its value reads as a document that is congruent to the recorded
one. -/
theorem recorded_default_is_computed {source : SourceText} {kind : SourceKind}
    (parses : source.parse kind = .ok program)
    (found : (program.arena.exprTree id).json? = some recorded) :
    ∃ value computed cost, value.json? = some computed ∧
      recorded.Congruent computed ∧
        ∀ machine : Machine, machine.gas + cost ≤ machine.gasLimit →
          machine.eval program id =
            (.ok value, { machine with gas := machine.gas + cost }) := by
  have closed := (SourceText.closed_of_parse parses).arena
  obtain ⟨value, ⟨cost, computes⟩, computed, reads, congruent⟩ :=
    reproduces_of_json? closed found
  exact ⟨value, computed, cost, reads, congruent,
    fun _ enough => computes.eval trivial enough⟩

end Program

namespace Sample

/-- A default in which a key is repeated, a sign is folded and a number needs
all 64 bits. -/
def objectDefault : SourceText :=
  ⟨"assembly/index.ts",
    "export function f(o: Pair = \x7blow: [-1], high: 18446744073709551615, " ++
      "low: [null, -9223372036854775808]\x7d): void \x7b\x7d"⟩

def objectRecord : Json :=
  .object [("high", .ofNat 18446744073709551615),
    ("low", .array [.null, .ofInt (-9223372036854775808)])]

/-- What is recorded of an expression of a source. -/
def recordedAt (source : SourceText) (id : ExprId) : Option Json :=
  match source.parse .entry with
  | .ok program => (program.arena.exprTree id).json?
  | .error _ => none

end Sample

theorem recorded_default_is_computed_of_object :
    ∃ program id recorded, Sample.objectDefault.parse .entry = .ok program ∧
      (program.arena.exprTree id).json? = some recorded ∧
      Sample.objectRecord.same recorded = true ∧
      ∃ value computed cost, value.json? = some computed ∧
        recorded.Congruent computed ∧
          ∀ machine : Machine, machine.gas + cost ≤ machine.gasLimit →
            machine.eval program id =
              (.ok value, { machine with gas := machine.gas + cost }) := by
  have records : (Sample.recordedAt Sample.objectDefault ⟨8⟩).any
      Sample.objectRecord.same = true := by
    decide +kernel
  obtain ⟨recorded, found, same⟩ := (Option.any_eq_true _ _).mp records
  unfold Sample.recordedAt at found
  split at found
  · rename_i program parses
    exact ⟨program, ⟨8⟩, recorded, parses, found, same,
      Program.recorded_default_is_computed parses found⟩
  · cases found

end PluginSurface
