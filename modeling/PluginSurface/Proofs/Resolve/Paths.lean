import PluginSurface.Proofs.Dict
import PluginSurface.Proofs.Grammar.Grammatical
import PluginSurface.Proofs.Syntax.Lexemes
import PluginSurface.Resolve.Table

/-!
# Paths of resolved types

The path of a nullable type is that of the type inside it with a mark at its
end. Paths of classes end in a name, so no other path ends in such a mark.
-/

namespace PluginSurface

/-! ## Marks of nullable types -/

/-- Characters in reverse order without the marks they start with. -/
def dropNullMarks : List Char → List Char
  | 'l' :: 'l' :: 'u' :: 'n' :: '|' :: rest => dropNullMarks rest
  | chars => chars

/-- A path without the marks of nullable types at its end. -/
def withoutNullMarks (path : String) : String :=
  String.ofList (dropNullMarks path.toList.reverse).reverse

theorem withoutNullMarks_append_mark (path : String) :
    withoutNullMarks (path ++ "|null") = withoutNullMarks path := by
  simp [withoutNullMarks, dropNullMarks]

theorem withoutNullMarks_eq_of_reverse {path : String} (chars : List Char)
    (reversed : path.toList.reverse = chars)
    (kept : dropNullMarks chars = chars) : withoutNullMarks path = path := by
  rw [withoutNullMarks, reversed, kept, ← reversed, List.reverse_reverse,
    String.ofList_toList]

theorem withoutNullMarks_append_angle (path : String) :
    withoutNullMarks (path ++ ">") = path ++ ">" :=
  withoutNullMarks_eq_of_reverse _ (String.toList_append ▸ List.reverse_append)
    rfl

/-- A text between a slash and the end of a path that has no bar in it keeps
the path from ending in a mark. -/
theorem dropNullMarks_slash {name : List Char} (noBar : '|' ∉ name)
    (rest : List Char) :
    dropNullMarks (name ++ '/' :: rest) = name ++ '/' :: rest := by
  unfold dropNullMarks
  split
  · next marked =>
      rcases name with _ | ⟨_, _ | ⟨_, _ | ⟨_, _ | ⟨_, _ | ⟨_, _⟩⟩⟩⟩⟩ <;>
        simp_all
  · rfl

/-- The path of a class: a path of a module or more, a slash and a name. -/
def IsClassPath (path : String) : Prop :=
  ∃ front name, path = front ++ "/" ++ name ∧ Scan.isWord name = true

theorem Scan.isWordPart_of_isWord {word : String}
    (isWord : isWord word = true) :
    ∀ char ∈ word.toList, isWordPart char = true := by
  unfold Scan.isWord at isWord
  split at isWord
  · cases isWord
  · next first rest chars =>
      rw [Bool.and_eq_true, List.all_eq_true] at isWord
      rw [chars]
      exact List.forall_mem_cons.mpr
        ⟨isWordPart_of_isWordStart isWord.1, isWord.2⟩

theorem Scan.bar_notMem_of_isWord {word : String}
    (isWord : isWord word = true) : '|' ∉ word.toList := by
  intro member
  exact absurd (isWordPart_of_isWord isWord _ member) (by decide)

theorem IsClassPath.withoutNullMarks_eq {path : String}
    (isPath : IsClassPath path) : withoutNullMarks path = path := by
  obtain ⟨front, name, rfl, isWord⟩ := isPath
  have noBar := Scan.bar_notMem_of_isWord isWord
  refine withoutNullMarks_eq_of_reverse
    (name.toList.reverse ++ '/' :: front.toList.reverse) ?_ ?_
  · simp
  · exact dropNullMarks_slash (by simpa using noBar) _

/-! ## Types -/

namespace DataType

/-- A type that is not nullable: the one inside all that makes it so. -/
def bare : DataType → DataType
  | .nullable inner => inner.bare
  | type => type

theorem bare_ne_nullable (type inner : DataType) :
    type.bare ≠ .nullable inner := by
  induction type with
  | nullable _ inductionHypothesis => exact inductionHypothesis
  | _ => simp [bare]

/-- All classes in a type have paths of classes. -/
def HasClassPaths : DataType → Prop
  | .array element => element.HasClassPaths
  | .map key value => key.HasClassPaths ∧ value.HasClassPaths
  | .class path => IsClassPath path
  | .nullable inner => inner.HasClassPaths
  | _ => True

theorem HasClassPaths.child {type child : DataType}
    (named : type.HasClassPaths) (member : child ∈ type.children) :
    child.HasClassPaths := by
  cases type with
  | array element =>
      cases List.mem_singleton.mp member
      exact named
  | map key value =>
      rcases List.mem_cons.mp member with rfl | inRest
      · exact named.1
      · cases List.mem_singleton.mp inRest
        exact named.2
  | nullable inner =>
      cases List.mem_singleton.mp member
      exact named
  | _ => cases member

theorem withoutNullMarks_primitive (kind : Primitive) :
    withoutNullMarks kind.text = kind.text := by
  cases kind <;> decide

/-- Without its marks the path of a type is that of the type inside. -/
theorem withoutNullMarks_path {type : DataType} (named : type.HasClassPaths) :
    withoutNullMarks type.path = type.bare.path := by
  induction type with
  | primitive kind => exact withoutNullMarks_primitive kind
  | string => decide
  | date => decide
  | array element _ => exact withoutNullMarks_append_angle _
  | map key value _ _ => exact withoutNullMarks_append_angle _
  | «class» path => exact IsClassPath.withoutNullMarks_eq named
  | nullable inner inductionHypothesis =>
      exact (withoutNullMarks_append_mark inner.path).trans
        (inductionHypothesis named)

end DataType

/-! ## Names -/

theorem isClassPath_foldl {names : List String}
    (words : ∀ name ∈ names, Scan.isWord name = true) {start : String}
    (isPath : names = [] → IsClassPath start) :
    IsClassPath
      (names.foldl (fun path segment => path ++ "/" ++ segment) start) := by
  induction names generalizing start with
  | nil => exact isPath rfl
  | cons name rest inductionHypothesis =>
      exact inductionHypothesis
        (fun other member => words other (List.mem_cons_of_mem _ member))
        fun _ => ⟨start, name, rfl, words name List.mem_cons_self⟩

theorem isClassPath_intercalate {names : List String} (nonempty : names ≠ [])
    (words : ∀ name ∈ names, Scan.isWord name = true) (front : String) :
    IsClassPath (front ++ "/" ++ String.intercalate "/" names) := by
  induction names generalizing front with
  | nil => contradiction
  | cons first rest inductionHypothesis =>
      cases rest with
      | nil =>
          rw [String.intercalate_singleton]
          exact ⟨front, first, rfl, words first List.mem_cons_self⟩
      | cons second rest =>
          have later := inductionHypothesis (List.cons_ne_nil _ _)
            (fun name member => words name (List.mem_cons_of_mem _ member))
            (front ++ "/" ++ first)
          simpa only [String.intercalate_cons_cons, String.append_assoc]
            using later

/-! ## Declarations -/

/-- Names that modules import are words, and types of fields are
grammatical. -/
structure Declarations.WellNamed (declarations : Declarations) : Prop where
  imports : ∀ {modulePath : String} {scope : ModuleScope},
    declarations.scopes.find? modulePath = some scope →
      ∀ {name source imported : String},
        scope.find? name = some (.imported source imported) →
          Scan.isWord imported = true
  fields : ∀ {path : String} {entry : ClassEntry},
    declarations.classes.find? path = some entry →
      ∀ field ∈ entry.decl.fields, field.type.shape.Grammatical

section

variable {declarations : Declarations} (wellNamed : declarations.WellNamed)

include wellNamed

theorem Declarations.WellNamed.isClassPath {names : List String}
    (nonempty : names ≠ [])
    (words : ∀ name ∈ names, Scan.isWord name = true) (modulePath : String) :
    IsClassPath (declarations.classPath modulePath names) := by
  unfold Declarations.classPath
  dsimp only
  cases found : declarations.scopes.find? modulePath with
  | none => exact isClassPath_intercalate nonempty words modulePath
  | some scope =>
      cases names with
      | nil => contradiction
      | cons first rest =>
          have restWords (name : String) (member : name ∈ rest) :=
            words name (List.mem_cons_of_mem first member)
          have firstWord := words first List.mem_cons_self
          simp only [ModuleScope.qualify, Option.bind_eq_bind,
            Option.bind_some]
          cases bound : scope.find? first with
          | none => exact isClassPath_intercalate nonempty words modulePath
          | some binding =>
              cases binding with
              | declared =>
                  exact isClassPath_foldl restWords
                    fun _ => ⟨scope.path, first, rfl, firstWord⟩
              | imported source name =>
                  exact isClassPath_foldl restWords fun _ =>
                    ⟨source, name, rfl, wellNamed.imports found bound⟩
              | wholeModule source =>
                  by_cases alone : rest = []
                  · simp only [alone]
                    exact isClassPath_intercalate (List.cons_ne_nil _ _)
                      (alone ▸ words) modulePath
                  · simp only [if_neg alone]
                    exact isClassPath_foldl restWords fun same =>
                      absurd same alone

theorem Declarations.WellNamed.named {names : List String}
    (nonempty : names ≠ [])
    (words : ∀ name ∈ names, Scan.isWord name = true)
    {arguments : List DataType}
    (parts : ∀ argument ∈ arguments, argument.HasClassPaths)
    (modulePath : String) :
    (declarations.named modulePath names arguments).HasClassPaths := by
  have isClass := wellNamed.isClassPath nonempty words modulePath
  unfold Declarations.named
  dsimp only
  split
  · split
    · trivial
    · split
      · trivial
      · trivial
      · trivial
      · next element _ =>
          have inner := parts element List.mem_cons_self
          exact inner
      · exact ⟨parts _ List.mem_cons_self,
          parts _ (List.mem_cons_of_mem _ List.mem_cons_self)⟩
      · exact isClass
  · exact isClass

end

mutual

theorem Declarations.WellNamed.resolveShape {declarations : Declarations}
    (wellNamed : declarations.WellNamed) (modulePath : String) :
    ∀ shape : TypeShape, shape.Grammatical →
      (declarations.resolveShape modulePath shape).HasClassPaths
  | .named _ arguments, grammatical =>
      wellNamed.named grammatical.1
        (fun name member =>
          isWord_of_isTypeName (grammatical.2.1 name member))
        (wellNamed.resolveShapes modulePath arguments grammatical.2.2)
        modulePath
  | .array element, grammatical =>
      wellNamed.resolveShape modulePath element grammatical
  | .nullable inner, grammatical =>
      wellNamed.resolveShape modulePath inner grammatical

theorem Declarations.WellNamed.resolveShapes {declarations : Declarations}
    (wellNamed : declarations.WellNamed) (modulePath : String) :
    ∀ shapes : List TypeShape, TypeShape.AllGrammatical shapes →
      ∀ type ∈ declarations.resolveShapes modulePath shapes,
        type.HasClassPaths
  | [], _ => nofun
  | shape :: rest, grammatical =>
      List.forall_mem_cons.mpr
        ⟨wellNamed.resolveShape modulePath shape grammatical.1,
          wellNamed.resolveShapes modulePath rest grammatical.2⟩

end

/-! ## Fields -/

namespace Declarations

variable {declarations : Declarations}

theorem map_type_placeFields (fields : List (String × DataType))
    (offset : Nat) :
    (placeFields offset fields).map PlacedField.type =
      fields.map Prod.snd := by
  induction fields generalizing offset with
  | nil => rfl
  | cons field rest inductionHypothesis =>
      exact congrArg (field.2 :: ·) (inductionHypothesis _)

section

variable {path : String} {seen : List String}

theorem ancestry_of_missing
    (missing : declarations.classes.find? path = none) :
    declarations.ancestry path seen = [] := by
  unfold ancestry
  split
  · rfl
  · next found =>
      rw [missing] at found
      cases found

theorem ancestry_of_seen (known : path ∈ seen) :
    declarations.ancestry path seen = [] := by
  unfold ancestry
  split
  · rfl
  · exact dif_pos known

theorem ancestry_of_new {entry : ClassEntry}
    (found : declarations.classes.find? path = some entry)
    (new : path ∉ seen) :
    declarations.ancestry path seen =
      entry ::
        match entry.decl.base.map (declarations.resolve entry.modulePath) with
        | some (.class base) => declarations.ancestry base (path :: seen)
        | _ => [] := by
  rw [ancestry.eq_def]
  split
  · next missing =>
      rw [found] at missing
      cases missing
  · next other same =>
      cases found.symm.trans same
      exact dif_neg new

/-- The classes that a class extends are declared. -/
theorem exists_find?_of_mem_ancestry {entry : ClassEntry}
    (member : entry ∈ declarations.ancestry path seen) :
    ∃ found, declarations.classes.find? found = some entry := by
  induction path, seen using ancestry.induct declarations with
  | case1 path seen missing =>
      rw [ancestry_of_missing missing] at member
      cases member
  | case2 path seen first found known =>
      rw [ancestry_of_seen known] at member
      cases member
  | case3 path seen first found new inductionHypothesis =>
      rw [ancestry_of_new found new] at member
      rcases List.mem_cons.mp member with rfl | inBases
      · exact ⟨path, found⟩
      · split at inBases
        · exact inductionHypothesis _ inBases
        · cases inBases

end

theorem layout?_types {path : String} {layout : ClassLayout}
    (found : declarations.layout? path = some layout) :
    layout.types =
      ((declarations.ancestry path []).reverse.flatMap
        declarations.ownFields).map Prod.snd := by
  unfold layout? at found
  split at found
  · cases found
  · next chain _ =>
      cases found
      exact map_type_placeFields _ 0

/-- Types that hang on a type are those of fields that classes declare. -/
theorem exists_field_of_mem_fieldTypes {type part : DataType}
    (member : part ∈ declarations.fieldTypes type) :
    ∃ path entry, declarations.classes.find? path = some entry ∧
      ∃ field ∈ entry.decl.fields,
        declarations.resolve entry.modulePath field.type = part := by
  unfold Declarations.fieldTypes at member
  split at member
  · next path =>
      cases found : declarations.layout? path with
      | none => simp [found] at member
      | some layout =>
          rw [found, Option.map_some, Option.getD_some,
            layout?_types found] at member
          obtain ⟨⟨name, _⟩, inFields, rfl⟩ := List.mem_map.mp member
          obtain ⟨entry, inChain, own⟩ := List.mem_flatMap.mp inFields
          obtain ⟨declared, known⟩ :=
            exists_find?_of_mem_ancestry (List.mem_reverse.mp inChain)
          obtain ⟨decl, inClass, same⟩ := List.mem_map.mp own
          cases same
          exact ⟨declared, entry, known, decl, inClass, rfl⟩
  · cases member

/-- Types that hang on a named type are named. -/
theorem WellNamed.fieldTypes (wellNamed : declarations.WellNamed)
    {type : DataType} :
    ∀ field ∈ declarations.fieldTypes type, field.HasClassPaths := by
  intro part member
  obtain ⟨path, entry, known, field, inClass, rfl⟩ :=
    exists_field_of_mem_fieldTypes member
  exact wellNamed.resolveShape _ _ (wellNamed.fields known field inClass)

end Declarations

/-! ## Programs -/

theorem Dict.mem_of_find?_ofEntries {Value : Type}
    {entries : List (String × Value)} {key : String} {value : Value}
    (found : (Dict.ofEntries entries).find? key = some value) :
    (key, value) ∈ entries :=
  Dict.mem_of_mem_ofEntries (Dict.mem_of_find? found)

namespace Program

variable {program : Program}

theorem item_grammatical (grammatical : program.tree.Grammatical) {item : Item}
    (member : item ∈ program.items) :
    (item.tree program.arena).Grammatical :=
  grammatical _ (List.mem_map_of_mem member)

theorem mem_functions_iff {function : FunctionDecl} :
    function ∈ program.functions ↔ .function function ∈ program.items := by
  simp only [functions, List.mem_filterMap]
  constructor
  · rintro ⟨item, member, found⟩
    split at found <;> cases found
    exact member
  · exact fun member => ⟨_, member, rfl⟩

theorem class_grammatical (grammatical : program.tree.Grammatical)
    {decl : ClassDecl} (member : decl ∈ program.classes) :
    ((Item.class decl).tree program.arena).Grammatical := by
  obtain ⟨item, inItems, found⟩ := List.mem_filterMap.mp member
  split at found <;> cases found
  exact item_grammatical grammatical inItems

theorem import_grammatical (grammatical : program.tree.Grammatical)
    {decl : ImportDecl} (member : decl ∈ program.imports) :
    ((Item.importList decl).tree program.arena).Grammatical := by
  obtain ⟨item, inItems, found⟩ := List.mem_filterMap.mp member
  split at found <;> cases found
  exact item_grammatical grammatical inItems

end Program

/-- What grammatical programs declare is well named. -/
theorem Declarations.wellNamed_ofPrograms {programs : List Program}
    (grammatical : ∀ program ∈ programs, program.tree.Grammatical) :
    (Declarations.ofPrograms programs).WellNamed where
  imports {modulePath scope} found {name source imported} bound := by
    obtain ⟨program, known, same⟩ :=
      List.mem_map.mp (Dict.mem_of_find?_ofEntries found)
    cases same
    rcases List.mem_append.mp (Dict.mem_of_find?_ofEntries bound) with
      isImport | isClass
    · obtain ⟨decl, inImports, binds⟩ := List.mem_flatMap.mp isImport
      have fits := Program.import_grammatical (grammatical program known)
        inImports
      rcases List.mem_append.mp binds with isWhole | isMember
      · obtain ⟨_, _, same⟩ := List.mem_map.mp isWhole
        cases same
      · obtain ⟨member, inMembers, same⟩ := List.mem_map.mp isMember
        cases same
        have named := fits.1 _ (List.mem_map_of_mem inMembers)
        exact (Bool.and_eq_true_iff.mp named.1).1
    · obtain ⟨_, _, same⟩ := List.mem_map.mp isClass
      cases same
  fields {path entry} found := by
    obtain ⟨program, known, declares⟩ :=
      List.mem_flatMap.mp (Dict.mem_of_find?_ofEntries found)
    obtain ⟨decl, inClasses, same⟩ := List.mem_map.mp declares
    cases same
    intro field member
    have fits := Program.class_grammatical (grammatical program known)
      inClasses
    exact (fits.2.2.2.1 _ (List.mem_map_of_mem member)).type

end PluginSurface
