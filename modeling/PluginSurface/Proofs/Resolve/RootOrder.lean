import PluginSurface.Proofs.Resolve.Identity
import PluginSurface.Proofs.Resolve.PlainPaths
import PluginSurface.Proofs.Resolve.Table
import PluginSurface.Proofs.Syntax.Lexing

/-!
# Tables and the order of their roots

Which types a table lists does not depend on the order they are asked for, as
long as no two of them have one path. Paths tell types apart but for classes of
the modules that built-in types are said to come from: where annotations mean
such a class, the first type to be met decides.
-/

namespace PluginSurface

/-- A definition but for its number. -/
def TypeDefinition.withoutId (definition : TypeDefinition) : TypeDefinition :=
  { definition with id := 0 }

namespace Declarations

variable {declarations : Declarations}

/-! ## Discovery -/

theorem not_isPrimitive_of_mem_discover {seen : List String}
    {stack : List DataType} {type : DataType}
    (member : type ∈ declarations.discover seen stack) :
    type.isPrimitive = false := by
  induction seen, stack using discover.induct declarations with
  | case1 seen =>
      rw [discover] at member
      cases member
  | case2 seen kind rest inductionHypothesis =>
      rw [discover] at member
      exact inductionHypothesis member
  | case3 seen inner rest inductionHypothesis =>
      rw [discover] at member
      exact inductionHypothesis member
  | case4 seen first rest notPrimitive notNullable known inductionHypothesis =>
      rw [discover.eq_4 _ _ _ _ notPrimitive notNullable, if_pos known]
        at member
      exact inductionHypothesis member
  | case5 seen first rest notPrimitive notNullable new inductionHypothesis =>
      rw [discover.eq_4 _ _ _ _ notPrimitive notNullable, if_neg new]
        at member
      rcases List.mem_cons.mp member with rfl | inRest
      · cases type with
        | primitive kind => exact absurd rfl (notPrimitive kind)
        | _ => rfl
      · exact inductionHypothesis inRest

/-- A type is come to from one of several types. -/
def Reaches (declarations : Declarations) (roots : List DataType)
    (type : DataType) : Prop :=
  ∃ root ∈ roots, Relation.ReflTransGen declarations.Leads root type

theorem Reaches.leads {roots : List DataType} {type part : DataType}
    (reaches : declarations.Reaches roots type)
    (leads : declarations.Leads type part) :
    declarations.Reaches roots part := by
  obtain ⟨root, isRoot, path⟩ := reaches
  exact ⟨root, isRoot, path.tail leads⟩

theorem leads_nullable_iff {inner part : DataType} :
    declarations.Leads (.nullable inner) part ↔ part = inner := by
  simp [Leads, DataType.children, fieldTypes]

theorem Reaches.bare {roots : List DataType} {type : DataType}
    (reaches : declarations.Reaches roots type) :
    declarations.Reaches roots type.bare := by
  induction type with
  | nullable inner inductionHypothesis =>
      exact inductionHypothesis (reaches.leads (leads_nullable_iff.mpr rfl))
  | _ => exact reaches

section

variable {roots : List DataType}
  (own : ∀ type, declarations.Reaches roots type → type.HasOwnPaths)

include own

theorem mem_discover_of_covered {type : DataType}
    (reaches : declarations.Reaches roots type)
    (covered : Covered ([] ++ (declarations.discover [] roots).map
      DataType.path) type) :
    type.bare.isPrimitive = true ∨
      type.bare ∈ declarations.discover [] roots := by
  apply covered.imp_right
  intro known
  obtain ⟨listed, isListed, samePath⟩ := List.mem_map.mp known
  have discovers := declarations.discovers_discover [] roots
  have listedOwn := own listed (discovers.reached listed isListed)
  have same :=
    DataType.eq_of_path_eq listedOwn (own _ reaches.bare) samePath
  exact same ▸ isListed

/-- All that is come to is listed, if paths tell it apart. -/
theorem mem_discover_of_reaches {type : DataType}
    (reaches : declarations.Reaches roots type) :
    type.bare.isPrimitive = true ∨
      type.bare ∈ declarations.discover [] roots := by
  have discovers := declarations.discovers_discover [] roots
  obtain ⟨root, isRoot, way⟩ := reaches
  induction way with
  | refl =>
      exact mem_discover_of_covered own ⟨root, isRoot, .refl⟩
        (discovers.roots root isRoot)
  | tail before leads inductionHypothesis =>
      rename_i last part
      have reachesPart : declarations.Reaches roots part :=
        ⟨root, isRoot, before.tail leads⟩
      cases last with
      | nullable inner =>
          rw [leads_nullable_iff.mp leads]
          exact inductionHypothesis
      | primitive kind => cases leads
      | _ =>
          rcases inductionHypothesis with isPrimitive | isListed
          · cases isPrimitive
          · exact mem_discover_of_covered own reachesPart
              (discovers.parts _ isListed part leads)

theorem mem_discover_iff {type : DataType} :
    type ∈ declarations.discover [] roots ↔
      type.bare = type ∧ type.isPrimitive = false ∧
        declarations.Reaches roots type := by
  have discovers := declarations.discovers_discover [] roots
  constructor
  · intro isListed
    exact ⟨discovers.bare type isListed,
      not_isPrimitive_of_mem_discover isListed,
      discovers.reached type isListed⟩
  · intro ⟨isBare, notPrimitive, reaches⟩
    have known := mem_discover_of_reaches own reaches
    rw [isBare, notPrimitive] at known
    exact known.resolve_left Bool.false_ne_true

end

/-- The same types are listed from the same roots in any order. -/
theorem perm_discover {roots ordered : List DataType}
    (own : ∀ type, declarations.Reaches roots type → type.HasOwnPaths)
    (perm : ordered.Perm roots) :
    (declarations.discover [] ordered).Perm
      (declarations.discover [] roots) := by
  have reachesSame (type : DataType) : declarations.Reaches ordered type ↔
      declarations.Reaches roots type := by
    unfold Reaches
    simp only [perm.mem_iff]
  have orderedOwn (type : DataType)
      (reaches : declarations.Reaches ordered type) : type.HasOwnPaths :=
    own type ((reachesSame type).mp reaches)
  have nodup (roots : List DataType) :
      (declarations.discover [] roots).Nodup :=
    (declarations.discovers_discover [] roots).distinct.of_map
  apply (List.perm_ext_iff_of_nodup (nodup ordered) (nodup roots)).mpr
  intro type
  rw [mem_discover_iff orderedOwn, mem_discover_iff own, reachesSame]

/-! ## Definitions -/

theorem map_withoutId_typeTable (roots : List DataType) :
    (declarations.typeTable roots).map TypeDefinition.withoutId =
      (declarations.discover [] roots).map (declarations.define 0) := by
  have pairs :=
    declarations.forall₂_defineAll firstFreeId (declarations.discover [] roots)
  unfold typeTable
  generalize declarations.defineAll firstFreeId _ = definitions at pairs ⊢
  generalize declarations.discover [] roots = listed at pairs ⊢
  induction pairs with
  | nil => rfl
  | cons pair _ inductionHypothesis =>
      obtain ⟨id, rfl⟩ := pair
      exact congrArg (_ :: ·) inductionHypothesis

/-- A definition is of a type that is listed, and that of the text type has its
number. -/
theorem exists_type_of_mem_defineAll {next : Nat} {listed : List DataType}
    {definition : TypeDefinition}
    (member : definition ∈ declarations.defineAll next listed) :
    ∃ type ∈ listed, definition.path = type.path ∧
      (type = .string → definition.id = stringId) := by
  induction listed generalizing next with
  | nil => cases member
  | cons first rest inductionHypothesis =>
      have further {next : Nat}
          (inRest : definition ∈ declarations.defineAll next rest) :
          ∃ type ∈ first :: rest, definition.path = type.path ∧
            (type = .string → definition.id = stringId) := by
        obtain ⟨type, isListed, facts⟩ := inductionHypothesis inRest
        exact ⟨type, List.mem_cons_of_mem _ isListed, facts⟩
      by_cases isString : first = .string
      · subst isString
        rw [defineAll_string] at member
        rcases List.mem_cons.mp member with rfl | inRest
        · exact ⟨.string, List.mem_cons_self, rfl, fun _ => rfl⟩
        · exact further inRest
      · rw [defineAll_other isString] at member
        rcases List.mem_cons.mp member with rfl | inRest
        · exact ⟨first, List.mem_cons_self, rfl, fun same =>
            absurd same isString⟩
        · exact further inRest

/-- A definition under the path of the text type has the number of that
type. -/
theorem id_of_string_path {roots : List DataType}
    (own : ∀ type, declarations.Reaches roots type → type.HasOwnPaths)
    {definition : TypeDefinition}
    (member : definition ∈ declarations.typeTable roots)
    (isString : definition.path = DataType.string.path) :
    definition.id = stringId := by
  obtain ⟨type, isListed, path, numbered⟩ :=
    exists_type_of_mem_defineAll member
  have reached :=
    (declarations.discovers_discover [] roots).reached type isListed
  have stringOwn : DataType.string.HasOwnPaths := nofun
  apply numbered
  exact DataType.eq_of_path_eq (own type reached) stringOwn
    (path.symm.trans isString)

end Declarations

/-! ## Types of annotations -/

/-- The paths of a program and of the modules it imports from. -/
def Program.origins (program : Program) : List String :=
  program.path :: program.imports.map fun decl =>
    ModulePath.resolve program.path decl.source

/-- Paths of modules are without the marks of paths of types. -/
def HavePlainOrigins (programs : List Program) : Prop :=
  ∀ program ∈ programs, ∀ origin ∈ program.origins, IsPlain origin

/-- An annotation in one of several programs means a type. -/
def Mentioned (programs : List Program) (type : DataType) : Prop :=
  ∃ program ∈ programs, ∃ shape : TypeShape, shape.Grammatical ∧
    (Declarations.ofPrograms programs).resolveShape program.path shape = type

theorem TypeShape.AllGrammatical.forall_mem {shapes : List TypeShape}
    (grammatical : AllGrammatical shapes) :
    ∀ shape ∈ shapes, shape.Grammatical := by
  induction shapes with
  | nil => nofun
  | cons shape rest inductionHypothesis =>
      exact List.forall_mem_cons.mpr
        ⟨grammatical.1, inductionHypothesis grammatical.2⟩

namespace Declarations

theorem exists_program_of_find?_classes {programs : List Program}
    {path : String} {entry : ClassEntry}
    (found : (ofPrograms programs).classes.find? path = some entry) :
    ∃ program ∈ programs, entry.modulePath = program.path ∧
      entry.decl ∈ program.classes := by
  obtain ⟨program, known, declares⟩ :=
    List.mem_flatMap.mp (Dict.mem_of_find?_ofEntries found)
  obtain ⟨decl, inClasses, same⟩ := List.mem_map.mp declares
  cases same
  exact ⟨program, known, rfl, inClasses⟩

theorem children_named (declarations : Declarations) (modulePath : String)
    (names : List String) (arguments : List DataType) :
    ∀ part ∈ (declarations.named modulePath names arguments).children,
      part ∈ arguments := by
  intro part member
  unfold named at member
  dsimp only at member
  split at member
  · split at member
    · cases member
    · split at member
      · cases member
      · cases member
      · cases member
      · exact member
      · exact member
      · cases member
  · cases member

theorem mem_resolveShapes {modulePath : String} {shapes : List TypeShape}
    {type : DataType}
    (declarations : Declarations)
    (member : type ∈ declarations.resolveShapes modulePath shapes) :
    ∃ shape ∈ shapes, declarations.resolveShape modulePath shape = type := by
  induction shapes with
  | nil => cases member
  | cons shape rest inductionHypothesis =>
      rw [resolveShapes] at member
      rcases List.mem_cons.mp member with rfl | inRest
      · exact ⟨shape, List.mem_cons_self, rfl⟩
      · obtain ⟨other, inShapes, same⟩ := inductionHypothesis inRest
        exact ⟨other, List.mem_cons_of_mem _ inShapes, same⟩

end Declarations

namespace Mentioned

variable {programs : List Program}

/-- What a mentioned type leads to is mentioned: in the annotation itself, or in
that of a field. -/
theorem leads (grammatical : ∀ program ∈ programs, program.tree.Grammatical)
    {type part : DataType} (mentioned : Mentioned programs type)
    (leads : (Declarations.ofPrograms programs).Leads type part) :
    Mentioned programs part := by
  rcases List.mem_append.mp leads with isChild | isField
  · obtain ⟨program, member, shape, isGrammatical, rfl⟩ := mentioned
    cases shape with
    | named names arguments =>
        have inArguments :=
          Declarations.children_named _ _ _ _ part isChild
        obtain ⟨argument, isArgument, same⟩ :=
          Declarations.mem_resolveShapes _ inArguments
        have parts := TypeShape.AllGrammatical.forall_mem isGrammatical.2.2
        exact ⟨program, member, argument, parts argument isArgument, same⟩
    | array element =>
        cases List.mem_singleton.mp isChild
        exact ⟨program, member, element, isGrammatical, rfl⟩
    | nullable inner =>
        cases List.mem_singleton.mp isChild
        exact ⟨program, member, inner, isGrammatical, rfl⟩
  · obtain ⟨path, entry, found, field, isOwn, rfl⟩ :=
      Declarations.exists_field_of_mem_fieldTypes isField
    obtain ⟨program, member, modulePath, declared⟩ :=
      Declarations.exists_program_of_find?_classes found
    have wellNamed := Declarations.wellNamed_ofPrograms grammatical
    exact ⟨program, member, field.type.shape, wellNamed.fields found field isOwn,
      modulePath ▸ rfl⟩

theorem reaches (grammatical : ∀ program ∈ programs, program.tree.Grammatical)
    {roots : List DataType} (mentioned : ∀ root ∈ roots, Mentioned programs root)
    {type : DataType}
    (reaches : (Declarations.ofPrograms programs).Reaches roots type) :
    Mentioned programs type := by
  obtain ⟨root, isRoot, way⟩ := reaches
  induction way with
  | refl => exact mentioned root isRoot
  | tail _ leads inductionHypothesis =>
      exact inductionHypothesis.leads grammatical leads

end Mentioned

/-! ## Origins of classes -/

theorem isPlain_slash : IsPlain "/" := by
  decide

theorem exists_plain_foldl {names : List String}
    (words : ∀ name ∈ names, Scan.isWord name = true) (start : String) :
    ∃ rest, IsPlain rest ∧
      names.foldl (fun path segment => path ++ "/" ++ segment) start =
        start ++ rest := by
  induction names generalizing start with
  | nil => exact ⟨"", nofun, String.append_empty.symm⟩
  | cons name further inductionHypothesis =>
      obtain ⟨rest, plain, same⟩ := inductionHypothesis
        (fun other member => words other (List.mem_cons_of_mem _ member))
        (start ++ "/" ++ name)
      have isPlain := isPlain_of_isWord (words name List.mem_cons_self)
      refine ⟨"/" ++ (name ++ rest), isPlain_slash.append
        (isPlain.append plain), ?_⟩
      rw [List.foldl_cons, same]
      simp only [String.append_assoc]

theorem isPlain_intercalate {names : List String}
    (words : ∀ name ∈ names, Scan.isWord name = true) :
    IsPlain (String.intercalate "/" names) := by
  induction names with
  | nil => nofun
  | cons first rest inductionHypothesis =>
      have isPlain := isPlain_of_isWord (words first List.mem_cons_self)
      have further := inductionHypothesis fun name member =>
        words name (List.mem_cons_of_mem _ member)
      cases rest with
      | nil => rwa [String.intercalate_singleton]
      | cons second rest =>
          rw [String.intercalate_cons_cons]
          exact (isPlain.append isPlain_slash).append further

/-- A path lies below the path of a program or of a module that one imports
from. -/
def IsBelowOrigin (programs : List Program) (path : String) : Prop :=
  ∃ program ∈ programs, ∃ origin ∈ program.origins, ∃ rest, IsPlain rest ∧
    path = origin ++ "/" ++ rest

theorem IsBelowOrigin.of_foldl {programs : List Program} {program : Program}
    (member : program ∈ programs) {origin : String}
    (isOrigin : origin ∈ program.origins) {first : String} {rest : List String}
    (words : ∀ name ∈ first :: rest, Scan.isWord name = true) :
    IsBelowOrigin programs
      (rest.foldl (fun path segment => path ++ "/" ++ segment)
        (origin ++ "/" ++ first)) := by
  obtain ⟨suffix, suffixPlain, folded⟩ := exists_plain_foldl
    (fun name member => words name (List.mem_cons_of_mem _ member))
    (origin ++ "/" ++ first)
  have firstPlain := isPlain_of_isWord (words first List.mem_cons_self)
  refine ⟨program, member, origin, isOrigin, first ++ suffix,
    firstPlain.append suffixPlain, ?_⟩
  rw [folded]
  simp only [String.append_assoc]

namespace ModuleScope

/-- The modules that names are bound to are among those that imports are
from. -/
theorem source_mem_origins {program : Program} {name source : String}
    {binding : Binding}
    (found : (ofProgram program).find? name = some binding)
    (isSource : binding = .wholeModule source ∨
      ∃ imported, binding = .imported source imported) :
    source ∈ program.origins := by
  rcases List.mem_append.mp (Dict.mem_of_find?_ofEntries found) with
    isImport | isClass
  · obtain ⟨decl, inImports, binds⟩ := List.mem_flatMap.mp isImport
    have fromDecl : source = ModulePath.resolve program.path decl.source := by
      rcases List.mem_append.mp binds with isWhole | isMember
      · obtain ⟨_, _, same⟩ := List.mem_map.mp isWhole
        cases same
        rcases isSource with same | ⟨imported, same⟩ <;> cases same
        rfl
      · obtain ⟨_, _, same⟩ := List.mem_map.mp isMember
        cases same
        rcases isSource with same | ⟨imported, same⟩ <;> cases same
        rfl
    rw [fromDecl]
    exact List.mem_cons_of_mem _ (List.mem_map_of_mem inImports)
  · obtain ⟨_, _, same⟩ := List.mem_map.mp isClass
    cases same
    rcases isSource with same | ⟨imported, same⟩ <;> cases same

end ModuleScope

theorem isBelowOrigin_classPath {programs : List Program}
    (grammatical : ∀ program ∈ programs, program.tree.Grammatical)
    {program : Program} (member : program ∈ programs) {names : List String}
    (words : ∀ name ∈ names, Scan.isWord name = true) :
    IsBelowOrigin programs
      ((Declarations.ofPrograms programs).classPath program.path names) := by
  have unbound : IsBelowOrigin programs
      (program.path ++ "/" ++ String.intercalate "/" names) :=
    ⟨program, member, program.path, List.mem_cons_self, _,
      isPlain_intercalate words, rfl⟩
  have wellNamed := Declarations.wellNamed_ofPrograms grammatical
  unfold Declarations.classPath
  dsimp only
  cases found : (Declarations.ofPrograms programs).scopes.find? program.path with
  | none => exact unbound
  | some scope =>
      obtain ⟨owner, isOwner, same⟩ :=
        List.mem_map.mp (Dict.mem_of_find?_ofEntries found)
      obtain ⟨_, rfl⟩ := Prod.mk.inj same
      cases names with
      | nil => exact unbound
      | cons first rest =>
          simp only [ModuleScope.qualify, Option.bind_eq_bind,
            Option.bind_some]
          cases bound : (ModuleScope.ofProgram owner).find? first with
          | none => exact unbound
          | some binding =>
              cases binding with
              | declared =>
                  exact .of_foldl isOwner List.mem_cons_self words
              | imported source name =>
                  have isOrigin :=
                    ModuleScope.source_mem_origins bound (.inr ⟨name, rfl⟩)
                  have isWord := wellNamed.imports found bound
                  exact .of_foldl isOwner isOrigin <|
                    List.forall_mem_cons.mpr
                      ⟨isWord, (List.forall_mem_cons.mp words).2⟩
              | wholeModule source =>
                  have isOrigin :=
                    ModuleScope.source_mem_origins bound (.inl rfl)
                  cases rest with
                  | nil => exact unbound
                  | cons second rest =>
                      exact .of_foldl isOwner isOrigin
                        (List.forall_mem_cons.mp words).2

/-- A name and type arguments that mean a class mean the one with the path of
the name. -/
theorem Declarations.named_eq_class {declarations : Declarations}
    {modulePath path : String} {names : List String}
    {arguments : List DataType}
    (isClass : declarations.named modulePath names arguments = .class path) :
    path = declarations.classPath modulePath names := by
  unfold named at isClass
  dsimp only at isClass
  split at isClass
  · split at isClass
    · cases isClass
    · split at isClass <;> cases isClass
      rfl
  · cases isClass
    rfl

namespace Mentioned

variable {programs : List Program}
  (grammatical : ∀ program ∈ programs, program.tree.Grammatical)

include grammatical

theorem isBelowOrigin {path : String}
    (mentioned : Mentioned programs (.class path)) :
    IsBelowOrigin programs path := by
  obtain ⟨program, member, shape, isGrammatical, isClass⟩ := mentioned
  cases shape with
  | named names arguments =>
      rw [Declarations.named_eq_class isClass]
      exact isBelowOrigin_classPath grammatical member fun name isName =>
        isWord_of_isTypeName (isGrammatical.2.1 name isName)
  | array element => cases isClass
  | nullable inner => cases isClass

theorem ofClassPath {type : DataType} (mentioned : Mentioned programs type) :
    ∀ path ∈ type.classPaths, Mentioned programs (.class path) := by
  have child {type part : DataType} (mentioned : Mentioned programs type)
      (isChild : part ∈ type.children) : Mentioned programs part :=
    mentioned.leads grammatical (List.mem_append_left _ isChild)
  intro path member
  induction type with
  | array element inductionHypothesis =>
      exact inductionHypothesis (child mentioned List.mem_cons_self) member
  | map key value keyHypothesis valueHypothesis =>
      rcases List.mem_append.mp member with inKey | inValue
      · exact keyHypothesis (child mentioned List.mem_cons_self) inKey
      · exact valueHypothesis (child mentioned
          (List.mem_cons_of_mem _ List.mem_cons_self)) inValue
  | «class» path =>
      cases List.mem_singleton.mp member
      exact mentioned
  | nullable inner inductionHypothesis =>
      exact inductionHypothesis (child mentioned List.mem_cons_self) member
  | _ => cases member

/-- Where no annotation means a class with the path of a built-in type, paths
tell mentioned types apart. -/
theorem hasOwnPaths (plain : HavePlainOrigins programs)
    (noString : ¬ Mentioned programs (.class DataType.string.path))
    (noDate : ¬ Mentioned programs (.class DataType.date.path))
    {type : DataType} (mentioned : Mentioned programs type) :
    type.HasOwnPaths := by
  intro path member
  have isClass := mentioned.ofClassPath grammatical path member
  obtain ⟨program, isProgram, origin, isOrigin, rest, restPlain, below⟩ :=
    isClass.isBelowOrigin grammatical
  constructor
  · rw [below]
    exact ((plain program isProgram origin isOrigin).append
      isPlain_slash).append restPlain
  · rw [below]
    simp
  · rintro rfl
    exact noString isClass
  · rintro rfl
    exact noDate isClass

end Mentioned

/-! ## Orders of roots -/

namespace Declarations

/-- Two tables define the same types, and number the text type alike. -/
structure TablesAgree (declarations : Declarations)
    (roots ordered : List DataType) : Prop where
  definitions : ((declarations.typeTable ordered).map
    TypeDefinition.withoutId).Perm
      ((declarations.typeTable roots).map TypeDefinition.withoutId)
  strings : ∀ definition ∈ declarations.typeTable roots ++
      declarations.typeTable ordered,
    definition.path = DataType.string.path → definition.id = stringId

theorem tablesAgree_of_perm {declarations : Declarations}
    {roots ordered : List DataType}
    (own : ∀ type, declarations.Reaches roots type → type.HasOwnPaths)
    (perm : ordered.Perm roots) : declarations.TablesAgree roots ordered := by
  have orderedOwn (type : DataType)
      (reaches : declarations.Reaches ordered type) : type.HasOwnPaths := by
    obtain ⟨root, isRoot, way⟩ := reaches
    exact own type ⟨root, perm.mem_iff.mp isRoot, way⟩
  constructor
  · rw [map_withoutId_typeTable, map_withoutId_typeTable]
    exact (perm_discover own perm).map _
  · intro definition member
    rcases List.mem_append.mp member with inFirst | inSecond
    · exact id_of_string_path own inFirst
    · exact id_of_string_path orderedOwn inSecond

section

variable {declarations : Declarations} {seen : List String} {type : DataType}
  (notPrimitive : type.isPrimitive = false)
  (notNullable : type.isNullable = false)

include notPrimitive notNullable

theorem discover_cons (rest : List DataType) :
    declarations.discover seen (type :: rest) =
      if type.path ∈ seen then declarations.discover seen rest
      else
        type :: declarations.discover (type.path :: seen)
          (type.children ++ declarations.fieldTypes type ++ rest) := by
  apply discover.eq_4
  · rintro kind rfl
    cases notPrimitive
  · rintro inner rfl
    cases notNullable

/-- A type with nothing inside hides another one with its path. -/
theorem discover_hides {hidden : DataType}
    (hiddenPrimitive : hidden.isPrimitive = false)
    (hiddenNullable : hidden.isNullable = false)
    (inside : type.children ++ declarations.fieldTypes type = [])
    (same : hidden.path = type.path) :
    declarations.discover [] [type, hidden] = [type] := by
  have isSeen : hidden.path ∈ [type.path] := List.mem_singleton.mpr same
  rw [discover_cons notPrimitive notNullable, if_neg List.not_mem_nil, inside,
    List.nil_append, discover_cons hiddenPrimitive hiddenNullable,
    if_pos isSeen, discover]

end

/-- A class is numbered on, also one with the path of the text type. -/
theorem not_tablesAgree_of_string (declarations : Declarations) :
    ¬ declarations.TablesAgree [.class DataType.string.path]
      [.class DataType.string.path] := by
  intro agree
  have first : declarations.define firstFreeId (.class DataType.string.path) ∈
      declarations.typeTable [.class DataType.string.path] := by
    rw [typeTable, discover_cons rfl rfl, if_neg List.not_mem_nil,
      defineAll_other DataType.noConfusion]
    exact List.mem_cons_self
  have isStringId : firstFreeId = stringId :=
    agree.strings _ (List.mem_append_left _ first) rfl
  exact absurd isStringId (by decide)

theorem define_class_ne_date (declarations : Declarations) (path : String) :
    declarations.define 0 (.class path) ≠ declarations.define 0 .date := by
  intro same
  have sizes := congrArg TypeDefinition.size same
  have fields := congrArg TypeDefinition.fields same
  cases found : declarations.layout? path with
  | none => simp [define, found] at sizes
  | some layout => simp [define, found] at fields

/-- A date and a class with its path hide each other. -/
theorem not_tablesAgree_of_date (declarations : Declarations) :
    ¬ declarations.TablesAgree [.date, .class DataType.date.path]
      [.class DataType.date.path, .date] := by
  intro agree
  have definitions := agree.definitions
  have onlyDate : declarations.discover []
      [.date, .class DataType.date.path] = [.date] :=
    discover_hides rfl rfl rfl rfl rfl rfl
  rw [map_withoutId_typeTable, map_withoutId_typeTable, onlyDate,
    discover_cons rfl rfl, if_neg List.not_mem_nil] at definitions
  have member := definitions.mem_iff.mp List.mem_cons_self
  exact declarations.define_class_ne_date _ (List.mem_singleton.mp member)

end Declarations

/-- Tables do not depend on the order of their roots exactly if no annotation
means a class with the path of a built-in type. -/
theorem tablesAgree_iff {programs : List Program}
    (grammatical : ∀ program ∈ programs, program.tree.Grammatical)
    (plain : HavePlainOrigins programs) :
    (∀ roots ordered : List DataType,
      (∀ root ∈ roots, Mentioned programs root) → ordered.Perm roots →
        (Declarations.ofPrograms programs).TablesAgree roots ordered) ↔
      ¬ Mentioned programs (.class DataType.string.path) ∧
        ¬ Mentioned programs (.class DataType.date.path) := by
  constructor
  · intro agree
    constructor
    · intro mentioned
      exact Declarations.not_tablesAgree_of_string _
        (agree _ _ (List.forall_mem_singleton.mpr mentioned) (.refl _))
    · intro mentioned
      obtain ⟨program, member, _⟩ := id mentioned
      have date : Mentioned programs .date :=
        ⟨program, member, .named ["Date"] [],
          ⟨List.cons_ne_nil _ _, by decide, trivial⟩, rfl⟩
      have roots := List.forall_mem_cons.mpr
        ⟨date, List.forall_mem_singleton.mpr mentioned⟩
      exact Declarations.not_tablesAgree_of_date _
        (agree _ _ roots (.swap _ _ _))
  · intro ⟨noString, noDate⟩ roots ordered mentioned perm
    apply Declarations.tablesAgree_of_perm _ perm
    intro type reaches
    exact Mentioned.hasOwnPaths grammatical plain noString noDate
      (Mentioned.reaches grammatical mentioned reaches)

namespace Sample

theorem programOf_grammatical (source : SourceText) :
    (programOf source).tree.Grammatical := by
  unfold programOf
  cases parsed : source.parse .user with
  | ok program => exact SourceText.parse_grammatical parsed
  | error diagnostics =>
      intro tree member
      cases member

/-- A program that imports the text type under another name. -/
def textImporter : Program :=
  programOf ⟨"assembly/index.ts",
    "import \x7b String as S \x7d from \"~lib/string\";"⟩

end Sample

/-- An imported text type is not the one that is built in, but has its path. -/
theorem tablesAgree_iff_of_textImporter :
    ¬ ∀ roots ordered : List DataType,
      (∀ root ∈ roots, Mentioned [Sample.textImporter] root) →
        ordered.Perm roots →
          (Declarations.ofPrograms [Sample.textImporter]).TablesAgree roots
            ordered := by
  have plain : HavePlainOrigins [Sample.textImporter] := by
    unfold HavePlainOrigins
    decide +kernel
  have grammatical : ∀ program ∈ [Sample.textImporter],
      program.tree.Grammatical :=
    List.forall_mem_singleton.mpr (Sample.programOf_grammatical _)
  have means : (Declarations.ofPrograms [Sample.textImporter]).resolveShape
      Sample.textImporter.path (.named ["S"] []) =
        .class DataType.string.path := by
    decide +kernel
  have mentioned : Mentioned [Sample.textImporter]
      (.class DataType.string.path) :=
    ⟨_, List.mem_cons_self, .named ["S"] [],
      ⟨List.cons_ne_nil _ _, by decide, trivial⟩, means⟩
  intro agree
  exact ((tablesAgree_iff grammatical plain).mp agree).1 mentioned

/-- The same roots in two orders, with two numbers and names for one path. -/
theorem tables_disagree_of_textImporter :
    let declarations := Declarations.ofPrograms [Sample.textImporter]
    let imported := declarations.resolve "assembly/index" (.simple "S" default)
    let builtIn :=
      declarations.resolve "assembly/index" (.simple "string" default)
    declarations.typeTable [imported, builtIn] =
        [⟨4, 0, "~lib/string/String", "String", none⟩] ∧
      declarations.typeTable [builtIn, imported] =
        [⟨2, 0, "~lib/string/String", "string", none⟩] := by
  intro declarations imported builtIn
  have facts : imported = .class DataType.string.path ∧ builtIn = .string ∧
      declarations.layout? DataType.string.path = none := by
    decide +kernel
  obtain ⟨isClass, isString, unknown⟩ := facts
  have noFields :
      declarations.fieldTypes (.class DataType.string.path) = [] := by
    rw [Declarations.fieldTypes, unknown]
    rfl
  have onlyClass : declarations.discover []
      [.class DataType.string.path, .string] =
        [.class DataType.string.path] :=
    Declarations.discover_hides rfl rfl rfl rfl noFields rfl
  have onlyText : declarations.discover []
      [.string, .class DataType.string.path] = [.string] :=
    Declarations.discover_hides rfl rfl rfl rfl rfl rfl
  have className : (DataType.class DataType.string.path).text = "String" := by
    decide +kernel
  rw [isClass, isString]
  constructor
  · rw [Declarations.typeTable, onlyClass,
      Declarations.defineAll_other DataType.noConfusion]
    simp only [Declarations.define, unknown, className]
    rfl
  · rw [Declarations.typeTable, onlyText]
    rfl

end PluginSurface
