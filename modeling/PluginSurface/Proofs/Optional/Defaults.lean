import PluginSurface.Optional.Default
import PluginSurface.Proofs.Dict
import PluginSurface.Proofs.Grammar.Grammatical
import PluginSurface.Proofs.Json.Documents

/-!
# Defaults as documents

A default is made a document value only if it consists of literals. Its objects
are dictionaries then, its whole numbers fit in 64 bits, and it nests no deeper
than the expression.
-/

namespace PluginSurface

namespace Json

theorem membersDepth_le_iff {members : List (String × Json)} {limit : Nat} :
    membersDepth members ≤ limit ↔
      ∀ entry ∈ members, entry.2.depth ≤ limit := by
  induction members with
  | nil => simp [membersDepth]
  | cons member rest inductionHypothesis =>
      rw [membersDepth, Nat.max_le, inductionHypothesis, List.forall_mem_cons]

theorem membersSorted_iff {members : List (String × Json)} :
    MembersSorted members ↔ ∀ entry ∈ members, entry.2.IsSorted := by
  induction members with
  | nil => simp [MembersSorted]
  | cons member rest inductionHypothesis =>
      rw [MembersSorted, inductionHypothesis, List.forall_mem_cons]

theorem mem_memberNumbers_iff {members : List (String × Json)}
    {number : JsonNumber} :
    number ∈ memberNumbers members ↔
      ∃ entry ∈ members, number ∈ entry.2.numbers := by
  induction members with
  | nil => simp [memberNumbers]
  | cons member rest inductionHypothesis =>
      rw [memberNumbers, List.mem_append, inductionHypothesis]
      simp

end Json

/-- Whether a number, if it is a whole one, fits in 64 bits with or without a
sign. -/
def JsonNumber.IsInteger : JsonNumber → Prop
  | .whole value =>
      -9223372036854775808 ≤ value ∧ value < 18446744073709551616
  | .real _ => True

/-- What holds of the document value of an expression that nests to a depth. -/
structure Json.IsDefault (nesting : Nat) (value : Json) : Prop where
  sorted : value.IsSorted
  shallow : value.depth ≤ nesting + 1
  integers : ∀ number ∈ value.numbers, number.IsInteger

namespace ExprTree

open Json (IsDefault)

theorem isDefault_leaf {value : Json} (nesting : Nat)
    (isLeaf : value.depth = 0) (sorted : value.IsSorted)
    (noNumbers : value.numbers = []) : IsDefault nesting value :=
  ⟨sorted, by omega, by simp [noNumbers]⟩

theorem isDefault_number (number : JsonNumber) (isInteger : number.IsInteger)
    (nesting : Nat) : IsDefault nesting (.number number) := by
  refine ⟨trivial, Nat.zero_le _, fun other member => ?_⟩
  rw [Json.numbers, List.mem_singleton] at member
  exact member ▸ isInteger

theorem isDefault_finite {value : Float} {json : Json}
    (found : finiteJson? value = some json) (nesting : Nat) :
    IsDefault nesting json := by
  unfold finiteJson? at found
  split at found <;> cases found
  exact isDefault_number (.real value) trivial nesting

/-- A minus sign stands before a number only. -/
theorem isDefault_negated {operand : ExprTree} {json : Json}
    (isNumber : operand.isNumber = true)
    (found : (match (DefaultLiteral.ofTree operand).negated with
      | .integer value => some (Json.ofInt value)
      | .float value => finiteJson? value
      | _ => none) = some json) (nesting : Nat) : IsDefault nesting json := by
  cases operand with
  | integer value spelling =>
      have small := value.toNat_lt
      simp only [DefaultLiteral.ofTree, DefaultLiteral.negated] at found
      split at found
      · next negative same =>
          split at same
          · next least =>
              cases same
              cases found
              have greatest : -(value.toNat : Int) < 18446744073709551616 := by
                omega
              exact isDefault_number (.whole _) ⟨least, greatest⟩ nesting
          · cases same
      · next same =>
          split at same <;> cases same
      · cases found
  | float value spelling =>
      simp only [DefaultLiteral.ofTree, DefaultLiteral.negated] at found
      exact isDefault_finite found nesting
  | _ => cases isNumber

mutual

theorem json?_isDefault :
    ∀ (tree : ExprTree) {value : Json}, tree.json? = some value →
      value.IsDefault tree.nesting
  | null, _, found => by
      cases found
      exact isDefault_leaf _ rfl trivial rfl
  | bool _, _, found => by
      cases found
      exact isDefault_leaf _ rfl trivial rfl
  | integer value _, _, found => by
      cases found
      have small := value.toNat_lt
      refine isDefault_number (.whole value.toNat) ?_ _
      constructor <;> omega
  | float _ _, _, found => isDefault_finite found _
  | string _, _, found => by
      cases found
      exact isDefault_leaf _ rfl trivial rfl
  | array elements, _, found => by
      obtain ⟨items, known, rfl⟩ := Option.map_eq_some_iff.mp found
      obtain ⟨sorted, shallow, integers⟩ := jsonItems?_isDefault elements known
      exact ⟨sorted, Nat.succ_le_succ shallow, integers⟩
  | object entries, _, found => by
      obtain ⟨members, known, rfl⟩ := Option.map_eq_some_iff.mp found
      obtain ⟨sorted, shallow, integers⟩ :=
        jsonEntries?_isDefault entries known
      rw [Json.membersSorted_iff] at sorted
      rw [Json.membersDepth_le_iff] at shallow
      have among {entry : String × Json}
          (member : entry ∈ Dict.ofEntries members) : entry ∈ members :=
        Dict.mem_of_mem_ofEntries member
      refine ⟨⟨Dict.ofEntries_of_isSorted (Dict.isSorted_ofEntries members),
        Json.membersSorted_iff.mpr fun entry member =>
          sorted entry (among member)⟩, Nat.succ_le_succ ?_,
        fun number member => ?_⟩
      · exact Json.membersDepth_le_iff.mpr fun entry member =>
          shallow entry (among member)
      · obtain ⟨entry, inMembers, inEntry⟩ :=
          Json.mem_memberNumbers_iff.mp member
        exact integers number
          (Json.mem_memberNumbers_iff.mpr ⟨entry, among inMembers, inEntry⟩)
  | unary .negate operand, _, found => by
      unfold json? at found
      split at found
      · next isNumber => exact isDefault_negated isNumber found _
      · cases found
  | unary .plus _, _, found => by cases found
  | unary .not _, _, found => by cases found
  | unary .bitNot _, _, found => by cases found
  | identifier _, _, found => by cases found
  | this, _, found => by cases found
  | new _ _, _, found => by cases found
  | call _ _ _, _, found => by cases found
  | member _ _, _, found => by cases found
  | index _ _, _, found => by cases found
  | binary _ _ _, _, found => by cases found
  | assign _ _ _, _, found => by cases found
  | conditional _ _ _, _, found => by cases found
  | cast _ _, _, found => by cases found
  | paren _, _, found => by cases found

theorem jsonItems?_isDefault :
    ∀ (trees : List ExprTree) {items : List Json},
      jsonItems? trees = some items →
        Json.ItemsSorted items ∧ Json.itemsDepth items ≤ nestingOfAll trees ∧
          ∀ number ∈ Json.itemNumbers items, number.IsInteger
  | [], _, found => by
      cases found
      exact ⟨trivial, Nat.le_refl _, nofun⟩
  | tree :: rest, _, found => by
      rw [jsonItems?] at found
      simp only [Option.bind_eq_bind, Option.bind_eq_some_iff] at found
      obtain ⟨item, known, items, restKnown, same⟩ := found
      cases same
      have first := json?_isDefault tree known
      obtain ⟨sorted, shallow, integers⟩ := jsonItems?_isDefault rest restKnown
      refine ⟨⟨first.sorted, sorted⟩, ?_, fun number member => ?_⟩
      · have bound := first.shallow
        rw [Json.itemsDepth, nestingOfAll]
        omega
      · rcases List.mem_append.mp member with inFirst | inRest
        · exact first.integers number inFirst
        · exact integers number inRest

theorem jsonEntries?_isDefault :
    ∀ (entries : List (String × ExprTree)) {members : List (String × Json)},
      jsonEntries? entries = some members →
        Json.MembersSorted members ∧
          Json.membersDepth members ≤ nestingOfEntries entries ∧
          ∀ number ∈ Json.memberNumbers members, number.IsInteger
  | [], _, found => by
      cases found
      exact ⟨trivial, Nat.le_refl _, nofun⟩
  | (key, tree) :: rest, _, found => by
      rw [jsonEntries?] at found
      simp only [Option.bind_eq_bind, Option.bind_eq_some_iff] at found
      obtain ⟨item, known, members, restKnown, same⟩ := found
      cases same
      have first := json?_isDefault tree known
      have notIdentifier : tree.isIdentifier = false := by
        cases tree <;> first | rfl | cases known
      obtain ⟨sorted, shallow, integers⟩ :=
        jsonEntries?_isDefault rest restKnown
      refine ⟨⟨first.sorted, sorted⟩, ?_, fun number member => ?_⟩
      · have bound := first.shallow
        rw [Json.membersDepth, nestingOfEntries, notIdentifier]
        simp only [Bool.false_eq_true, if_false]
        omega
      · rcases List.mem_append.mp member with inFirst | inRest
        · exact first.integers number inFirst
        · exact integers number inRest

end

end ExprTree

end PluginSurface
