import PluginSurface.Optional.Default
import PluginSurface.Proofs.Resolve.Paths
import PluginSurface.Proofs.Resolve.Specifiers
import PluginSurface.Surface.Listing

/-!
# Line breaks in what is shown

Names, types and numbers are shown without line breaks. A string is shown as it
is, up to its sixth character, so the line breaks of a signature are those of
its name and of the strings that are defaults.
-/

namespace PluginSurface

/-! ## Line breaks -/

def isLineBreak (char : Char) : Bool :=
  char = '\n' || char = '\r'

/-- The line feeds and carriage returns of a text, in their order. -/
def lineBreaks (text : String) : List Char :=
  text.toList.filter isLineBreak

@[simp]
theorem lineBreaks_append (left right : String) :
    lineBreaks (left ++ right) = lineBreaks left ++ lineBreaks right := by
  rw [lineBreaks, String.toList_append, List.filter_append]
  rfl

theorem lineBreaks_intercalate {mark : String} (plain : lineBreaks mark = [])
    (texts : List String) :
    lineBreaks (String.intercalate mark texts) = texts.flatMap lineBreaks := by
  induction texts with
  | nil => rfl
  | cons first rest inductionHypothesis =>
      cases rest with
      | nil => simp
      | cons second rest =>
          simp [String.intercalate_cons_cons, plain, inductionHypothesis]

/-- Characters of a kind that no line break is of make up a text without line
breaks. -/
theorem lineBreaks_of_kind {text : String} {kind : Char → Bool}
    (isKind : ∀ char ∈ text.toList, kind char = true)
    (noFeed : kind '\n' = false) (noReturn : kind '\r' = false) :
    lineBreaks text = [] := by
  refine List.filter_eq_nil_iff.mpr fun char member breaks => ?_
  have either : char = '\n' ∨ char = '\r' := by simpa [isLineBreak] using breaks
  have held := isKind char member
  rcases either with rfl | rfl
  · exact absurd held (by simp [noFeed])
  · exact absurd held (by simp [noReturn])

/-- Nothing that is cut out of a text without line breaks has any. -/
theorem lineBreaks_of_sublist {part : List Char} {text : String}
    (cut : part.Sublist text.toList) (plain : lineBreaks text = []) :
    lineBreaks (String.ofList part) = [] := by
  rw [lineBreaks, String.toList_ofList]
  exact List.sublist_nil.mp (plain ▸ cut.filter isLineBreak)

/-! ## Words and types -/

theorem lineBreaks_of_isWord {word : String}
    (isWord : Scan.isWord word = true) : lineBreaks word = [] :=
  lineBreaks_of_kind (Scan.isWordPart_of_isWord isWord) (by decide) (by decide)

/-- The last segment of the path of a class is its name. -/
theorem ModulePath.lastSegment_of_isWord {front name : String}
    (isWord : Scan.isWord name = true) :
    lastSegment (front ++ "/" ++ name) = name := by
  have noSlash : '/' ∉ name.toList := fun member =>
    absurd (Scan.isWordPart_of_isWord isWord _ member) (by decide)
  have chars : (front ++ "/" ++ name).toList =
      front.toList ++ '/' :: name.toList := by
    simp
  rw [lastSegment, segments, chars, splitAtMark_append,
    splitAtMark_of_not_mem noSlash, List.getLastD_concat,
    String.ofList_toList]

namespace DataType

theorem lineBreaks_primitive (kind : Primitive) :
    lineBreaks kind.text = [] := by
  cases kind <;> rfl

/-- Types are shown without line breaks, also those of modules whose paths have
some. -/
theorem lineBreaks_text {type : DataType} (named : type.HasClassPaths) :
    lineBreaks type.text = [] := by
  induction type with
  | primitive kind => exact lineBreaks_primitive kind
  | string => rfl
  | date => rfl
  | array element inductionHypothesis =>
      have inner := inductionHypothesis named
      unfold text
      split
      · rw [lineBreaks_append, lineBreaks_append, inner]
        rfl
      · rw [lineBreaks_append, inner]
        rfl
  | map key value keyHypothesis valueHypothesis =>
      simp only [text, lineBreaks_append, keyHypothesis named.1,
        valueHypothesis named.2]
      rfl
  | «class» path =>
      obtain ⟨front, name, rfl, isWord⟩ := named
      rw [text, ModulePath.lastSegment_of_isWord isWord]
      exact lineBreaks_of_isWord isWord
  | nullable inner inductionHypothesis =>
      rw [text, lineBreaks_append, inductionHypothesis named]
      rfl

end DataType

/-! ## Numbers -/

namespace NumberLayout

open Decimal

theorem lineBreaks_nat (value : Nat) : lineBreaks (toString value) = [] := by
  refine lineBreaks_of_kind (fun char member => ?_)
    (show Char.isDigit '\n' = false from rfl) rfl
  rw [show (toString value).toList = Nat.toDigits 10 value from
    Nat.toList_repr] at member
  exact Nat.isDigit_of_mem_toDigits (by decide) (by decide) member

theorem lineBreaks_int (value : Int) : lineBreaks (toString value) = [] := by
  cases value with
  | ofNat value => exact lineBreaks_nat value
  | negSucc value =>
      exact (lineBreaks_append "-" _).trans (lineBreaks_nat (value + 1))

theorem lineBreaks_zeros (count : Nat) : lineBreaks (zeros count) = [] := by
  rw [zeros, lineBreaks, String.toList_ofList, List.filter_replicate]
  rfl

theorem lineBreaks_positional (keepsFraction : Bool) (value : Scaled) :
    lineBreaks (positional keepsFraction value) = [] := by
  have digits := lineBreaks_nat value.digits
  unfold positional
  dsimp only
  split
  · rw [lineBreaks_append, lineBreaks_append, digits, lineBreaks_zeros]
    split <;> rfl
  · split
    · have taken (count : Nat) :=
        lineBreaks_of_sublist (List.take_sublist count _) digits
      have dropped (count : Nat) :=
        lineBreaks_of_sublist (List.drop_sublist count _) digits
      simp only [lineBreaks_append, taken, dropped]
      rfl
    · simp only [lineBreaks_append, lineBreaks_zeros, digits]
      rfl

theorem lineBreaks_scientific (leading : Int) (value : Scaled) :
    lineBreaks (scientific leading value) = [] := by
  have digits := lineBreaks_nat value.digits
  have mark : lineBreaks (if leading < 0 then "e-" else "e+") = [] := by
    split <;> rfl
  unfold lineBreaks at digits
  unfold scientific
  dsimp only
  rw [lineBreaks_append, lineBreaks_append, mark, lineBreaks_nat,
    List.append_nil, List.append_nil]
  generalize (toString value.digits).toList = chars at digits ⊢
  split
  · rfl
  · rwa [lineBreaks, String.toList_ofList]
  · rw [List.filter_eq_nil_iff, List.forall_mem_cons] at digits
    rw [lineBreaks, String.toList_ofList, List.filter_eq_nil_iff]
    exact List.forall_mem_cons.mpr
      ⟨digits.1, List.forall_mem_cons.mpr ⟨by decide, digits.2⟩⟩

theorem lineBreaks_magnitude (layout : NumberLayout) (significand : Nat)
    (exponent : Int) :
    lineBreaks (layout.magnitude significand exponent) = [] := by
  unfold magnitude
  split
  · split <;> rfl
  · dsimp only
    split
    · exact lineBreaks_positional _ _
    · exact lineBreaks_scientific _ _

theorem lineBreaks_render (layout : NumberLayout) (value : Float) :
    lineBreaks (layout.render value) = [] := by
  unfold render
  split
  · rfl
  · split <;> rfl
  · rw [lineBreaks_append, lineBreaks_magnitude]
    split <;> rfl

end NumberLayout

/-! ## Defaults -/

/-- The part of a string that is shown of it. -/
def shownFront (content : String) : String :=
  String.ofList (content.toList.take 6)

/-- What is shown, as it is, of an expression: the front of a string, and
nothing of all others. -/
def ExprTree.shownContent? : ExprTree → Option String
  | .string content => some (shownFront content)
  | _ => none

namespace DefaultLiteral

theorem lineBreaks_cutNumber {number : String}
    (plain : lineBreaks number = []) :
    lineBreaks (cutNumber number) = [] := by
  unfold cutNumber
  split
  · exact plain
  · rw [lineBreaks_append, lineBreaks_of_sublist (List.take_sublist 6 _) plain]
    rfl

theorem lineBreaks_cutString (content : String) :
    lineBreaks (cutString content) = lineBreaks (shownFront content) := by
  have quote : lineBreaks "\"" = [] := rfl
  have dots : lineBreaks ellipsis = [] := rfl
  unfold cutString
  split
  · next short =>
      have whole : shownFront content = content := by
        rw [shownFront, List.take_of_length_le short, String.ofList_toList]
      simp [quote, whole]
  · simp [quote, dots, shownFront]

/-- Only a string is shown with line breaks. -/
theorem lineBreaks_text_of_not_string {literal : DefaultLiteral}
    (notString : ∀ content, literal ≠ string content) :
    lineBreaks literal.text = [] := by
  unfold text
  split
  · rfl
  · split <;> rfl
  · exact lineBreaks_cutNumber (NumberLayout.lineBreaks_int _)
  · exact lineBreaks_cutNumber (NumberLayout.lineBreaks_render _ _)
  · exact absurd rfl (notString _)
  all_goals rfl

theorem negated_ne_string (literal : DefaultLiteral) (content : String) :
    literal.negated ≠ string content := by
  intro same
  unfold negated at same
  split at same
  · split at same <;> cases same
  · cases same
  · cases same

theorem lineBreaks_text_ofTree (tree : ExprTree) :
    lineBreaks (ofTree tree).text =
      tree.shownContent?.toList.flatMap lineBreaks := by
  cases tree with
  | string content =>
      rw [show (ofTree (.string content)).text = cutString content from rfl,
        lineBreaks_cutString]
      simp [ExprTree.shownContent?]
  | unary operator operand =>
      refine lineBreaks_text_of_not_string fun content same => ?_
      cases operator with
      | negate => exact negated_ne_string _ _ same
      | _ => cases same
  | _ =>
      refine lineBreaks_text_of_not_string fun content same => ?_
      cases same

end DefaultLiteral

/-! ## Signatures -/

theorem Parameter.lineBreaks_text (records : List OptionalRecord)
    (parameter : Parameter) :
    lineBreaks (parameter.text records) =
      lineBreaks parameter.name ++ lineBreaks parameter.type.name ++
        if parameter.isOptional then
          lineBreaks (defaultText records parameter.name)
        else [] := by
  have colon : lineBreaks ": " = [] := rfl
  have equals : lineBreaks " = " = [] := rfl
  unfold text
  rw [lineBreaks_append, lineBreaks_append, lineBreaks_append, colon,
    List.append_nil]
  split
  · rw [lineBreaks_append, equals, List.nil_append]
  · rfl

/-- A signature has the line breaks of its name, of the parameters it shows and
of what it returns. -/
theorem FunctionSignature.lineBreaks_text (signature : FunctionSignature)
    (records : Option (List OptionalRecord)) :
    lineBreaks (signature.text records) =
      lineBreaks signature.name ++
        ((signature.parameters.filter fun parameter =>
          !parameter.isInternal).flatMap fun parameter =>
            lineBreaks (parameter.text (records.getD []))) ++
        lineBreaks signature.returnType.name := by
  have opening : lineBreaks "(" = [] := rfl
  have closing : lineBreaks "): " = [] := rfl
  unfold text
  dsimp only
  simp only [lineBreaks_append, opening, closing, List.append_nil,
    lineBreaks_intercalate (show lineBreaks ", " = [] from rfl),
    List.flatMap_map]

end PluginSurface
