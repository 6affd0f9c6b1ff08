import PluginSurface.Proofs.Build.Signatures
import PluginSurface.Proofs.Resolve.Table
import PluginSurface.Proofs.Syntax.Lexing

/-!
# The types of a manifest

A manifest is closed: every path that it tells is that of a type held in place
or of exactly one of its definitions. Definitions have numbers of their own, and
each is needed for some signature.
-/

namespace PluginSurface

open Masking

/-! ## Types of functions -/

/-- All types of a function are grammatical. -/
structure FunctionDecl.Typed (function : FunctionDecl) : Prop where
  params : ∀ param ∈ function.params, param.type.shape.Grammatical
  returns : ∀ type ∈ function.returnType, type.shape.Grammatical

theorem FunctionDecl.typed_of_grammatical {arena : Arena}
    {function : FunctionDecl}
    (grammatical : (function.tree arena).Grammatical) : function.Typed where
  params _ member :=
    (grammatical.params _ (List.mem_map_of_mem member)).1.type
  returns _ found := grammatical.returnType _ (Option.mem_map_of_mem _ found)

theorem Masking.MaskedFunction.typed {selected : FunctionDecl → Bool}
    {arena : Arena} {function masked : FunctionDecl}
    (masks : MaskedFunction selected arena function masked)
    (typed : function.Typed) : masked.Typed := by
  have without : ∀ param ∈ function.params.map withoutInitializer,
      param.type.shape.Grammatical := by
    intro param member
    obtain ⟨original, inParams, rfl⟩ := List.mem_map.mp member
    exact typed.params original inParams
  cases masks with
  | kept => exact typed
  | host => exact ⟨without, typed.returns⟩
  | guarded =>
      refine ⟨fun param member => ?_, typed.returns⟩
      rcases List.mem_append.mp member with inParams | isMask
      · exact without param inParams
      · cases List.mem_singleton.mp isMask
        refine ⟨nofun, fun segment member => ?_, trivial⟩
        rw [List.mem_singleton.mp member]
        exact (show isTypeName maskType = true by decide)

theorem ResolvedFunction.hasClassPaths {declarations : Declarations}
    (wellNamed : declarations.WellNamed) {function : FunctionDecl}
    (typed : function.Typed) (name modulePath : String) :
    ∀ type ∈ (ResolvedFunction.ofDecl declarations name modulePath
      function).types, type.HasClassPaths := by
  intro type member
  rcases List.mem_append.mp member with inParams | isReturn
  · simp only [ofDecl, List.map_map] at inParams
    obtain ⟨param, known, rfl⟩ := List.mem_map.mp inParams
    exact wellNamed.resolveShape _ _ (typed.params param known)
  · cases List.mem_singleton.mp isReturn
    simp only [ofDecl, Declarations.resolveReturn]
    split
    · exact wellNamed.resolveShape _ _ (typed.returns _ ‹_›)
    · trivial

theorem mem_of_processedFunction? {programs : List Program} {name : String}
    {program : Program} {function : FunctionDecl}
    (found : processedFunction? programs name = some (program, function)) :
    program ∈ programs ∧ function ∈ program.functions := by
  obtain ⟨other, member, known⟩ := List.exists_of_findSome?_eq_some found
  split at known
  · cases known
  · obtain ⟨first, isFirst, same⟩ := Option.map_eq_some_iff.mp known
    cases same
    exact ⟨List.mem_reverse.mp member, List.mem_of_find?_eq_some isFirst⟩

/-- The types that processed functions mention have paths of classes. -/
theorem hasClassPaths_of_mem_roots {programs masked : List Program}
    {context : MaskingContext}
    (succeeds : maskSources programs = (.ok masked, context))
    (grammatical : ∀ program ∈ programs, program.tree.Grammatical) :
    ∀ type ∈ (resolvedFunctions context masked).flatMap
      ResolvedFunction.types, type.HasClassPaths := by
  have passes := masksPrograms_of_maskSources succeeds
  intro type member
  obtain ⟨function, isResolved, inFunction⟩ := List.mem_flatMap.mp member
  obtain ⟨name, _, found⟩ := List.mem_filterMap.mp isResolved
  obtain ⟨⟨target, masked⟩, isTarget, rfl⟩ := Option.map_eq_some_iff.mp found
  have rel := passes.processedFunction?_rel name
  rw [isTarget] at rel
  generalize isSource : processedFunction? programs name = source at rel
  rcases rel with @⟨source, _, stands⟩
  obtain ⟨known, inProgram⟩ := mem_of_processedFunction? isSource
  have topLevel := Program.item_grammatical (grammatical _ known)
    (Program.mem_functions_iff.mp inProgram)
  have typed := stands.counterpart.masks.typed
    (FunctionDecl.typed_of_grammatical topLevel.grammatical)
  refine ResolvedFunction.hasClassPaths ?_ typed _ _ type inFunction
  rw [passes.declarations_eq]
  exact Declarations.wellNamed_ofPrograms grammatical

/-! ## Closed manifests -/

namespace Manifest

/-- A path is that of a type held in place or of exactly one definition. Marks
of nullable types at its end do not count. -/
def Resolves (manifest : Manifest) (path : String) : Prop :=
  (∃ kind : Primitive, withoutNullMarks path = kind.text) ∨
    (manifest.types.map TypeDefinition.path).count (withoutNullMarks path) = 1

/-- A manifest whose signatures mention some types, and whose definitions are
those of the types that are listed, tells no path that is not known and nothing
twice. What a listed array or map is made of is known as well, and being
nullable is not listed apart. -/
structure ClosedUnder (manifest : Manifest) (declarations : Declarations)
    (roots listed : List DataType) : Prop where
  mentioned : roots.map DataType.ref =
    manifest.functions.flatMap fun signature =>
      signature.parameters.map Parameter.type ++ [signature.returnType]
  entries : List.Forall₂ (fun type definition =>
      ∃ id, definition = declarations.define id type)
    listed manifest.types
  parameters : ∀ signature ∈ manifest.functions,
    ∀ parameter ∈ signature.parameters, manifest.Resolves parameter.type.path
  returns : ∀ signature ∈ manifest.functions,
    manifest.Resolves signature.returnType.path
  fields : ∀ definition ∈ manifest.types, ∀ fields ∈ definition.fields,
    ∀ field ∈ fields, manifest.Resolves field.type.path
  elements : ∀ element, .array element ∈ listed →
    manifest.Resolves element.path
  entryTypes : ∀ key value, .map key value ∈ listed →
    manifest.Resolves key.path ∧ manifest.Resolves value.path
  noNullable : ∀ inner, .nullable inner ∉ listed
  paths : (manifest.types.map TypeDefinition.path).Nodup
  ids : (manifest.types.map TypeDefinition.id).Nodup
  numbers : Declarations.otherIds listed manifest.types =
    List.range' 4 (Declarations.otherIds listed manifest.types).length
  reachable : ∀ type ∈ listed, ∃ root ∈ roots,
    Relation.ReflTransGen declarations.Leads root type

end Manifest

/-- Definitions of what is discovered resolve the paths of types that are
covered. -/
theorem resolves_of_covered {manifest : Manifest} {declarations : Declarations}
    {roots : List DataType} {type : DataType}
    (types : manifest.types = declarations.typeTable roots)
    (named : type.HasClassPaths)
    (covered : Declarations.Covered
      ([] ++ (declarations.discover [] roots).map DataType.path) type) :
    manifest.Resolves type.path := by
  unfold Manifest.Resolves
  rw [DataType.withoutNullMarks_path named]
  rcases covered with isPrimitive | member
  · left
    cases bare : type.bare with
    | primitive kind => exact ⟨kind, rfl⟩
    | _ => rw [bare] at isPrimitive; cases isPrimitive
  · right
    rw [types, Declarations.typeTable, Declarations.map_path_defineAll]
    exact List.count_eq_one_of_mem
      (declarations.discovers_discover [] roots).distinct member

theorem Declarations.WellNamed.reached {declarations : Declarations}
    (wellNamed : declarations.WellNamed) {root type : DataType}
    (named : root.HasClassPaths)
    (reaches : Relation.ReflTransGen declarations.Leads root type) :
    type.HasClassPaths := by
  induction reaches with
  | refl => exact named
  | tail _ leads inductionHypothesis =>
      rcases List.mem_append.mp leads with isChild | isField
      · exact inductionHypothesis.child isChild
      · exact wellNamed.fieldTypes _ isField

/-- A table of the types that signatures mention closes a manifest. -/
theorem closedUnder_typeTable {manifest : Manifest}
    {declarations : Declarations} {roots : List DataType}
    (types : manifest.types = declarations.typeTable roots)
    (mentioned : roots.map DataType.ref =
      manifest.functions.flatMap fun signature =>
        signature.parameters.map Parameter.type ++ [signature.returnType])
    (wellNamed : declarations.WellNamed)
    (rootsNamed : ∀ type ∈ roots, type.HasClassPaths) :
    manifest.ClosedUnder declarations roots
      (declarations.discover [] roots) := by
  have discovers := declarations.discovers_discover [] roots
  have named (type : DataType)
      (member : type ∈ declarations.discover [] roots) :
      type.HasClassPaths := by
    obtain ⟨root, isRoot, reaches⟩ := discovers.reached type member
    exact wellNamed.reached (rootsNamed root isRoot) reaches
  have parts (type : DataType) (member : type ∈ declarations.discover [] roots)
      (part : DataType) (leads : declarations.Leads type part) :
      manifest.Resolves part.path :=
    resolves_of_covered types (wellNamed.reached (named type member)
      (.single leads)) (discovers.parts type member part leads)
  -- What a signature mentions is the reference to a root.
  have resolved (signature : FunctionSignature)
      (isSignature : signature ∈ manifest.functions) (type : TypeRef)
      (member : type ∈
        signature.parameters.map Parameter.type ++ [signature.returnType]) :
      manifest.Resolves type.path := by
    have isMentioned : type ∈ roots.map DataType.ref :=
      mentioned ▸ List.mem_flatMap.mpr ⟨signature, isSignature, member⟩
    obtain ⟨root, isRoot, rfl⟩ := List.mem_map.mp isMentioned
    exact resolves_of_covered types (rootsNamed root isRoot)
      (discovers.roots root isRoot)
  have entries := declarations.forall₂_defineAll Declarations.firstFreeId
    (declarations.discover [] roots)
  refine ⟨mentioned, ?_, ?_, ?_, ?_, ?_, ?_, ?_, ?_, ?_, ?_,
    discovers.reached⟩
  · rw [types]
    exact entries
  · exact fun signature isSignature parameter member =>
      resolved signature isSignature _
        (List.mem_append_left _ (List.mem_map_of_mem member))
  · exact fun signature isSignature =>
      resolved signature isSignature _
        (List.mem_append_right _ (List.mem_singleton_self _))
  · intro definition isDefinition fields tells field member
    rw [types] at isDefinition
    obtain ⟨type, isListed, id, rfl⟩ :=
      exists_of_mem_right entries isDefinition
    obtain ⟨part, leads, same⟩ :=
      Declarations.exists_leads_of_mem_fields tells member
    rw [same]
    exact parts type isListed part leads
  · exact fun element isListed =>
      parts _ isListed element (List.mem_append_left _ List.mem_cons_self)
  · exact fun key value isListed =>
      ⟨parts _ isListed key (List.mem_append_left _ List.mem_cons_self),
        parts _ isListed value (List.mem_append_left _
          (List.mem_cons_of_mem _ List.mem_cons_self))⟩
  · exact fun inner isListed =>
      DataType.bare_ne_nullable _ inner (discovers.bare _ isListed)
  · rw [types, Declarations.typeTable, Declarations.map_path_defineAll]
    exact discovers.distinct
  · rw [types]
    exact Declarations.nodup_map_id_defineAll (by decide)
      discovers.distinct.of_map
  · rw [types, Declarations.typeTable, Declarations.otherIds_defineAll,
      List.length_range']
    rfl

theorem resolvedFunctions_types (context : MaskingContext)
    (programs : List Program) :
    ((resolvedFunctions context programs).flatMap
        ResolvedFunction.types).map DataType.ref =
      (assembleSignatures context programs).flatMap fun signature =>
        signature.parameters.map Parameter.type ++ [signature.returnType] := by
  unfold assembleSignatures
  rw [List.map_flatMap, List.flatMap_map]
  refine List.flatMap_congr fun function _ => ?_
  have shown (records : List OptionalRecord) (name : String)
      (type : DataType) :
      (ResolvedFunction.parameter records name type).type = type.ref := by
    unfold ResolvedFunction.parameter
    split <;> rfl
  simp [ResolvedFunction.types, ResolvedFunction.signature, shown,
    Function.comp_def]

theorem grammatical_of_parseAll {sources : List BuildSource}
    {diagnostics : Diagnostics} :
    ∀ program ∈ (Build.parseAll sources diagnostics).1,
      program.tree.Grammatical := by
  induction sources generalizing diagnostics with
  | nil => simp [Build.parseAll]
  | cons first rest inductionHypothesis =>
      intro program member
      unfold Build.parseAll at member
      split at member
      · rename_i parsed
        rcases List.mem_cons.mp member with rfl | later
        · exact SourceText.parse_grammatical parsed
        · exact inductionHypothesis program later
      · exact inductionHypothesis program member

theorem grammatical_of_transform {build after : Build}
    {sources : List BuildSource} {transformed : Transformed}
    (accepts : build.transform sources = (.ok transformed, after)) :
    ∀ program ∈ transformed.parsed, program.tree.Grammatical := by
  unfold Build.transform at accepts
  dsimp only at accepts
  split at accepts
  · cases accepts
  · split at accepts
    · cases accepts
      exact grammatical_of_parseAll
    · cases accepts

/-- The manifest of an accepted build is closed under the types that its
functions mention, which are found after finitely many steps also when classes
refer to each other or extend each other. -/
theorem manifest_isClosed {build after : Build} {sources : List BuildSource}
    {transformed : Transformed}
    (accepts : build.transform sources = (.ok transformed, after)) :
    ∃ manifest roots listed, after.manifest = .ok manifest ∧
      roots = (resolvedFunctions after.context
        transformed.programs).flatMap ResolvedFunction.types ∧
      manifest.ClosedUnder (.ofPrograms transformed.programs) roots listed ∧
      (∃ steps, (Declarations.ofPrograms transformed.programs).discoverWithin
        steps [] roots = some listed) ∧
      ∀ path, ∃ steps,
        (Declarations.ofPrograms transformed.programs).ancestryWithin
            steps path [] =
          some ((Declarations.ofPrograms transformed.programs).ancestry
            path []) := by
  obtain ⟨isTransformed, -, succeeds⟩ := masks_of_transform accepts
  have grammatical := grammatical_of_transform accepts
  have ensured : after.ensureTransformed = .ok transformed := by
    simp [Build.ensureTransformed, isTransformed]
  have rootsNamed := hasClassPaths_of_mem_roots succeeds grammatical
  have wellNamed := Declarations.wellNamed_ofPrograms grammatical
  rw [← (masksPrograms_of_maskSources succeeds).declarations_eq] at wellNamed
  have mentioned := resolvedFunctions_types after.context transformed.programs
  unfold Build.manifest
  rw [ensured]
  refine ⟨_, _, _, rfl, rfl, ?_,
    Declarations.exists_discoverWithin _ [] _, fun path =>
      ⟨_, Declarations.ancestryWithin_eq (Nat.lt_succ_self _)⟩⟩
  exact closedUnder_typeTable rfl mentioned wellNamed rootsNamed

namespace Sample

/-- Classes that refer to each other and extend each other. -/
def cyclic : List BuildSource :=
  [⟨⟨"assembly/index.ts",
    "class A extends B \x7b b: B | null; names: string[]; \x7d
     class B extends A \x7b a: A; \x7d
     export function f(a: A | null, m: Map<string, B>): A[] \x7b
       return []; \x7d"⟩, .entry⟩]

end Sample

theorem manifest_isClosed_of_cyclic :
    ∃ transformed after,
      Sample.build.transform Sample.cyclic = (.ok transformed, after) ∧
      ∃ manifest roots listed, after.manifest = .ok manifest ∧
        roots = (resolvedFunctions after.context
          transformed.programs).flatMap ResolvedFunction.types ∧
        manifest.ClosedUnder (.ofPrograms transformed.programs) roots
          listed ∧
        (∃ steps, (Declarations.ofPrograms
          transformed.programs).discoverWithin steps [] roots =
            some listed) ∧
        ∀ path, ∃ steps,
          (Declarations.ofPrograms transformed.programs).ancestryWithin
              steps path [] =
            some ((Declarations.ofPrograms transformed.programs).ancestry
              path []) := by
  have accepted : (Sample.build.transform Sample.cyclic).1.isOk = true := by
    decide +kernel
  obtain ⟨transformed, after, accepts⟩ := exists_transformed accepted
  exact ⟨transformed, after, accepts, manifest_isClosed accepts⟩

end PluginSurface
