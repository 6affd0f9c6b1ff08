import Mathlib.Data.List.Nodup
import PluginSurface.Build.Session
import PluginSurface.Proofs.Grammar.Closure
import PluginSurface.Proofs.Optional.Records

/-!
# The signatures of a manifest

A manifest shows one signature for each processed name. Names and types are
those of the first function of the name in the last program that has one, but
what is optional, and the defaults, are those of the last function there. The
signature is that of the last function exactly if both declare the same
parameters and no default hides behind another parameter of its name.
-/

namespace PluginSurface

open Masking

/-! ## What a declaration promises -/

def Arena.defaultJson? (arena : Arena) (initializer : ExprId) : Option Json :=
  (arena.exprTree initializer).json?

namespace FunctionDecl

/-- A function takes a mask, once it is processed, if it has defaults and a
body. -/
def takesMask (function : FunctionDecl) : Bool :=
  function.hasDefaults && function.body.isSome

/-- What a signature has to tell of one parameter of a function. -/
def declaredParameter (declarations : Declarations) (program : Program)
    (param : Param) : Parameter where
  name := param.name.text
  type := (declarations.resolve program.path param.type).ref
  isOptional := param.initializer.isSome
  default? := param.initializer.bind program.arena.defaultJson?

def maskParameters (function : FunctionDecl) : List Parameter :=
  if function.takesMask then
    [⟨maskParameter, (DataType.primitive .u64).ref, false, none⟩]
  else []

/-- The signature that one function of a program has to be shown with. -/
def declaredSignature (declarations : Declarations) (name : String)
    (program : Program) (function : FunctionDecl) : FunctionSignature where
  name := name
  parameters :=
    function.params.map (declaredParameter declarations program) ++
      function.maskParameters
  returnType :=
    (declarations.resolveReturn program.path function.returnType).ref

/-- The default of the first parameter with a name that has a default. -/
def defaultOf? (function : FunctionDecl) (name : String) : Option ExprId :=
  function.params.findSome? fun param =>
    if param.name.text == name then param.initializer else none

/-- Every parameter has, as far as a document can tell, the default that is
found under its name. -/
def OwnDefaults (arena : Arena) (function : FunctionDecl) : Prop :=
  ∀ param ∈ function.params,
    (function.defaultOf? param.name.text).map arena.defaultJson? =
      param.initializer.map arena.defaultJson?

theorem ownDefaults_of_distinct {function : FunctionDecl}
    (distinct : (function.params.map fun param => param.name.text).Nodup)
    (arena : Arena) : function.OwnDefaults arena := by
  intro param member
  have same := List.inj_on_of_nodup_map distinct
  suffices found : function.defaultOf? param.name.text = param.initializer by
    rw [found]
  cases found : function.defaultOf? param.name.text with
  | none =>
      have missing := List.findSome?_eq_none_iff.mp found param member
      simpa using missing.symm
  | some initializer =>
      obtain ⟨other, among, default⟩ := List.exists_of_findSome?_eq_some found
      split at default
      · rename_i named
        rw [same among member (by simpa using named)] at default
        exact default.symm
      · cases default

end FunctionDecl

/-! ## What records make of a signature -/

/-- The default that is recorded of the first parameter with a name. -/
def recordedDefault? (records : List OptionalRecord) (name : String) :
    Option (Option Json) :=
  (records.find? fun record => record.parameter.name == name).map fun record =>
    record.parameter.default?

/-- A parameter that is optional if it is recorded. -/
def Parameter.withRecords (records : List OptionalRecord)
    (parameter : Parameter) : Parameter :=
  let default := recordedDefault? records parameter.name
  { parameter with isOptional := default.isSome, default? := default.join }

namespace FunctionSignature

/-- A signature whose optional parameters are the recorded ones. -/
def withRecords (records : List OptionalRecord)
    (signature : FunctionSignature) : FunctionSignature :=
  { signature with
    parameters := signature.parameters.map (Parameter.withRecords records) }

def surface (signature : FunctionSignature) :
    List (String × TypeRef) × TypeRef :=
  (signature.parameters.map fun parameter => (parameter.name, parameter.type),
    signature.returnType)

theorem surface_withRecords (records : List OptionalRecord)
    (signature : FunctionSignature) :
    (signature.withRecords records).surface = signature.surface := by
  simp [surface, withRecords, Parameter.withRecords, Function.comp_def]

/-- Records decide all that the surface does not tell. -/
theorem withRecords_congr {first second : FunctionSignature}
    (named : first.name = second.name) (same : first.surface = second.surface)
    (records : List OptionalRecord) :
    first.withRecords records = second.withRecords records := by
  have parameters (signature : FunctionSignature) :
      signature.withRecords records =
        ⟨signature.name, signature.surface.1.map fun parameter =>
          Parameter.withRecords records ⟨parameter.1, parameter.2, false, none⟩,
          signature.surface.2⟩ := by
    simp [surface, withRecords, Parameter.withRecords, Function.comp_def]
  rw [parameters first, parameters second, named, same]

end FunctionSignature

/-- What is shown of a parameter is what is recorded under its name. -/
theorem ResolvedFunction.parameter_eq (records : List OptionalRecord)
    (name : String) (type : DataType) (isOptional : Bool)
    (default? : Option Json) :
    ResolvedFunction.parameter records name type =
      Parameter.withRecords records ⟨name, type.ref, isOptional, default?⟩ := by
  unfold ResolvedFunction.parameter Parameter.withRecords recordedDefault?
  dsimp only
  cases records.find? fun record => record.parameter.name == name <;> rfl

/-- What a record keeps of the default of a parameter. -/
structure Arena.Records (arena : Arena) (record : OptionalRecord)
    (initializer : ExprId) : Prop where
  default : record.parameter.default? = arena.defaultJson? initializer
  text : record.text =
    some (DefaultLiteral.ofTree (arena.exprTree initializer)).text

/-- The first record under a name is about the default that is found under it. -/
theorem find?_recordsOf_rel (arena : Arena) (function : FunctionDecl)
    (name : String) :
    Option.Rel arena.Records
      ((recordsOf arena function).find? fun record =>
        record.parameter.name == name)
      (function.defaultOf? name) := by
  unfold recordsOf FunctionDecl.defaultOf?
  induction function.params with
  | nil => exact .none
  | cons param rest inductionHypothesis =>
      rw [List.filterMap_cons, List.findSome?_cons]
      cases default : param.initializer with
      | none => simpa [recordOf?, default] using inductionHypothesis
      | some initializer =>
          by_cases same : param.name.text = name
          · simp only [recordOf?, default, Option.map_some, same, beq_self_eq_true,
              List.find?_cons_of_pos, if_true]
            exact .some ⟨rfl, rfl⟩
          · simpa [recordOf?, same, default] using inductionHypothesis

theorem recordedDefault?_recordsOf (arena : Arena) (function : FunctionDecl)
    (name : String) :
    recordedDefault? (recordsOf arena function) name =
      (function.defaultOf? name).map arena.defaultJson? := by
  have rel := find?_recordsOf_rel arena function name
  unfold recordedDefault?
  generalize List.find? _ _ = record, function.defaultOf? name = initializer
    at rel ⊢
  cases rel with
  | none => rfl
  | some records => exact congrArg some records.default

section

variable {declarations : Declarations} {name : String} {program : Program}
  {function : FunctionDecl}

/-- A parameter shows its declaration if the default under its name is its
own. -/
theorem withRecords_declaredParameter_iff (param : Param) :
    (FunctionDecl.declaredParameter declarations program param).withRecords
        (recordsOf program.arena function) =
          FunctionDecl.declaredParameter declarations program param ↔
      (function.defaultOf? param.name.text).map program.arena.defaultJson? =
        param.initializer.map program.arena.defaultJson? := by
  unfold Parameter.withRecords FunctionDecl.declaredParameter
  rw [recordedDefault?_recordsOf]
  simp only [Parameter.mk.injEq, true_and]
  cases function.defaultOf? param.name.text <;> cases param.initializer <;>
    simp

/-- Nothing is recorded of the mask. -/
theorem withRecords_maskParameters
    (unreserved : function.takesMask = true →
      ∀ param ∈ function.params, param.name.text ≠ maskParameter) :
    function.maskParameters.map
        (Parameter.withRecords (recordsOf program.arena function)) =
      function.maskParameters := by
  unfold FunctionDecl.maskParameters
  split
  · rename_i takesMask
    have missing : function.defaultOf? maskParameter = none := by
      refine List.findSome?_eq_none_iff.mpr fun param member => ?_
      simp [unreserved takesMask param member]
    simp [Parameter.withRecords, recordedDefault?_recordsOf, missing]
  · rfl

/-- The records of a function restore the signature that it declares exactly if
its parameters have their own defaults. -/
theorem withRecords_declaredSignature_iff
    (unreserved : function.takesMask = true →
      ∀ param ∈ function.params, param.name.text ≠ maskParameter) :
    (function.declaredSignature declarations name program).withRecords
        (recordsOf program.arena function) =
          function.declaredSignature declarations name program ↔
      function.OwnDefaults program.arena := by
  simp only [FunctionSignature.withRecords, FunctionDecl.declaredSignature,
    FunctionSignature.mk.injEq, List.map_append, List.map_map, true_and,
    and_true, withRecords_maskParameters unreserved,
    List.append_cancel_right_eq, List.map_inj_left, Function.comp_apply,
    withRecords_declaredParameter_iff]
  rfl

theorem withRecords_eq_declaredSignature_iff {first : FunctionDecl}
    (unreserved : function.takesMask = true →
      ∀ param ∈ function.params, param.name.text ≠ maskParameter) :
    (first.declaredSignature declarations name program).withRecords
        (recordsOf program.arena function) =
          function.declaredSignature declarations name program ↔
      (first.declaredSignature declarations name program).surface =
          (function.declaredSignature declarations name program).surface ∧
        function.OwnDefaults program.arena := by
  have named : (first.declaredSignature declarations name program).name =
      (function.declaredSignature declarations name program).name := rfl
  rw [← withRecords_declaredSignature_iff unreserved]
  constructor
  · intro shown
    have same : (first.declaredSignature declarations name program).surface =
        (function.declaredSignature declarations name program).surface := by
      rw [← shown, FunctionSignature.surface_withRecords]
    rw [FunctionSignature.withRecords_congr named same] at shown
    exact ⟨same, shown⟩
  · rintro ⟨same, restored⟩
    rwa [FunctionSignature.withRecords_congr named same]

end

/-! ## First and last functions -/

/-- Searches through related lists that find related things in related elements
find related things. -/
theorem findSome?_rel {First Second Found Other : Type}
    {related : First → Second → Prop} {results : Found → Other → Prop}
    {firsts : List First} {seconds : List Second}
    (pairs : List.Forall₂ related firsts seconds)
    {search : First → Option Found} {find : Second → Option Other}
    (same : ∀ {first second}, related first second →
      Option.Rel results (search first) (find second)) :
    Option.Rel results (firsts.findSome? search) (seconds.findSome? find) := by
  induction pairs with
  | nil => exact .none
  | @cons first second _ _ pair _ inductionHypothesis =>
      have found := same pair
      rw [List.findSome?_cons, List.findSome?_cons]
      generalize search first = result, find second = other at found ⊢
      cases found with
      | some found => exact .some found
      | none => exact inductionHypothesis

/-- The search for the last function of a name and the one for the processed
function stop in the same program. -/
theorem lastDeclared?_rel (programs : List Program) (name : String) :
    Option.Rel (fun last first => first.1 = last.1 ∧
        last.1.function? name = some first.2)
      (lastDeclared? programs name) (processedFunction? programs name) := by
  unfold lastDeclared? ownFunctions processedFunction?
  rw [List.reverse_flatMap, List.find?_flatMap]
  refine findSome?_rel (List.forall₂_same.mpr fun _ _ => rfl) ?_
  rintro program _ rfl
  by_cases isLibrary : program.kind = .library
  · simp [isLibrary]
  · have both : (program.functions.reverse.find? fun function =>
        function.resolvedName == name).isSome =
          (program.function? name).isSome := by
      rw [Bool.eq_iff_iff]
      simp [Program.function?]
    have composed : ((fun declared : Program × FunctionDecl =>
        declared.2.resolvedName == name) ∘ fun function =>
          (program, function)) = fun function =>
            function.resolvedName == name := rfl
    simp only [Function.comp_apply, isLibrary, if_false]
    rw [← List.map_reverse, List.find?_map, composed]
    generalize List.find? _ program.functions.reverse = last at both ⊢
    cases first : program.function? name <;> rw [first] at both <;>
      cases last <;> cases both
    · exact .none
    · exact .some ⟨rfl, first⟩

theorem processedFunction?_of_last {programs : List Program} {name : String}
    {program : Program} {last : FunctionDecl}
    (isLast : lastDeclared? programs name = some (program, last)) :
    ∃ first, program.function? name = some first ∧
      processedFunction? programs name = some (program, first) := by
  have rel := lastDeclared?_rel programs name
  rw [isLast] at rel
  generalize processedFunction? programs name = found at rel ⊢
  cases rel with
  | @some _ first pair =>
      obtain ⟨same, isFirst⟩ := pair
      subst same
      exact ⟨first.2, isFirst, rfl⟩

/-! ## Masked programs -/

namespace Masking

/-- A function of a program that is no library, and what stands for it when
masking is done. -/
structure StandsFor (context : MaskingContext)
    (target source : Program × FunctionDecl) : Prop where
  masks : MaskedProgram (isSelected source.1.kind context) source.1 target.1
  counterpart : Counterpart (isSelected source.1.kind context) source.1 target.1
    source.2 target.2

section

variable {context later : MaskingContext} {programs masked : List Program}

theorem MasksPrograms.map_eq
    (passes : MasksPrograms context programs masked later) {Part : Type}
    (read : Program → Part)
    (same : ∀ {source target}, MaskedModule context source target →
      read target = read source) :
    masked.map read = programs.map read := by
  have pairs := passes.modules
  clear passes
  induction pairs with
  | nil => rfl
  | cons first _ inductionHypothesis =>
      rw [List.map_cons, List.map_cons, same first, inductionHypothesis]

/-- Types mean the same in masked programs. -/
theorem MasksPrograms.declarations_eq
    (passes : MasksPrograms context programs masked later) :
    Declarations.ofPrograms masked = Declarations.ofPrograms programs := by
  have scopes := passes.map_eq (fun program =>
      (program.path, ModuleScope.ofProgram program)) fun masks => by
    cases masks with
    | library => rfl
    | own _ masks =>
        simp only [ModuleScope.ofProgram, masks.classes_eq, masks.imports_eq,
          masks.path]
  have classes := passes.map_eq Declarations.classEntries fun masks => by
    cases masks with
    | library => rfl
    | own _ masks =>
        simp only [Declarations.classEntries, masks.classes_eq, masks.path]
  unfold Declarations.ofPrograms
  rw [scopes, List.flatMap_def, classes, List.flatMap_def]

theorem MasksPrograms.processedFunction?_rel
    (passes : MasksPrograms context programs masked later) (name : String) :
    Option.Rel (fun source target => StandsFor context target source)
      (processedFunction? programs name) (processedFunction? masked name) := by
  unfold processedFunction?
  refine findSome?_rel (List.rel_reverse passes.modules) ?_
  rintro source target (isLibrary | ⟨notLibrary, masks⟩)
  · rw [if_pos isLibrary]
    exact .none
  · have rel := find?_rel masks.functions
      (fun function => function.resolvedName == name)
      (fun function => function.resolvedName == name) fun pair =>
        congrArg (· == name) pair.masks.resolvedName_eq
    rw [if_neg notLibrary, masks.kind, if_neg notLibrary]
    unfold Program.function?
    generalize source.functions.find? _ = first,
      target.functions.find? _ = second at rel ⊢
    cases rel with
    | none => exact .none
    | some pair => exact .some ⟨masks, pair⟩

end

/-! ## Signatures of counterparts -/

section

variable {selected : FunctionDecl → Bool} {arena : Arena}
  {function masked : FunctionDecl}

theorem MaskedFunction.unreserved
    (masks : MaskedFunction selected arena function masked)
    (selects : selected function = true)
    (takesMask : function.takesMask = true) :
    ∀ param ∈ function.params, param.name.text ≠ maskParameter := by
  obtain ⟨defaults, hasBody⟩ := Bool.and_eq_true_iff.mp takesMask
  cases masks with
  | kept plain =>
      rw [plain selects] at defaults
      cases defaults
  | host _ noBody =>
      rw [noBody] at hasBody
      cases hasBody
  | guarded _ _ _ _ unreserved => exact unreserved

/-- What stands for a function shows its names and types, and the optional
parameters that are recorded. -/
theorem MaskedFunction.signature_eq
    (masks : MaskedFunction selected arena function masked)
    (selects : selected function = true) (declarations : Declarations)
    (name : String) (program : Program) (records : List OptionalRecord) :
    (ResolvedFunction.ofDecl declarations name program.path masked).signature
        records =
      (function.declaredSignature declarations name program).withRecords
        records := by
  have shown (params : List Param) :
      (params.map fun param => (param.name.text,
          declarations.resolve program.path param.type)).map
        (fun param => ResolvedFunction.parameter records param.1 param.2) =
      (params.map (FunctionDecl.declaredParameter declarations program)).map
        (Parameter.withRecords records) := by
    rw [List.map_map, List.map_map]
    exact List.map_congr_left fun param _ =>
      ResolvedFunction.parameter_eq records _ _ _ _
  simp only [ResolvedFunction.signature, ResolvedFunction.ofDecl,
    FunctionSignature.withRecords, FunctionDecl.declaredSignature,
    List.map_append, ← shown]
  cases masks with
  | kept plain =>
      have unmasked : function.maskParameters = [] := by
        simp [FunctionDecl.maskParameters, FunctionDecl.takesMask,
          plain selects]
      simp [unmasked]
  | host _ noBody =>
      have unmasked : function.maskParameters = [] := by
        simp [FunctionDecl.maskParameters, FunctionDecl.takesMask, noBody]
      simp [unmasked, withoutInitializers, withoutInitializer,
        Function.comp_def]
  | guarded _ defaults hasBody =>
      have takesMask : function.takesMask = true := by
        simp [FunctionDecl.takesMask, defaults, hasBody]
      have maskResolved : declarations.resolve program.path
          (maskParam function.span).type = .primitive .u64 := by
        rfl
      have maskNamed : (maskParam function.span).name.text = maskParameter :=
        rfl
      simp [FunctionDecl.maskParameters, takesMask, Masking.guarded,
        withoutInitializer, Function.comp_def, maskResolved, maskNamed,
        ← ResolvedFunction.parameter_eq]

end

end Masking

/-! ## The manifest of a build -/

/-- What a manifest shows under a name: names and types of the first function in
the program that has the last one, and the defaults that are recorded of the
last one. -/
structure Shows (programs : List Program) (context : MaskingContext)
    (name : String) (signature : FunctionSignature) (program : Program)
    (first last : FunctionDecl) : Prop where
  isLast : lastDeclared? programs name = some (program, last)
  isFirst : program.function? name = some first
  records : context.records? name = some (recordsOf program.arena last)
  signature : signature =
    (first.declaredSignature (.ofPrograms programs) name program).withRecords
      (recordsOf program.arena last)

/-- When a signature shows the last function of its name: if the first function
shows the same names and types, and the last one's defaults are its own. -/
def Matches (programs : List Program) (name : String) (program : Program)
    (first last : FunctionDecl) : Prop :=
  let declarations := Declarations.ofPrograms programs
  (first.declaredSignature declarations name program).surface =
      (last.declaredSignature declarations name program).surface ∧
    last.OwnDefaults program.arena

/-- The only function of a name in its program matches itself if its parameters
have names of their own. -/
theorem matches_of_distinct {programs : List Program} {name : String}
    {program : Program} {function : FunctionDecl}
    (distinct : (function.params.map fun param => param.name.text).Nodup) :
    Matches programs name program function function :=
  ⟨rfl, FunctionDecl.ownDefaults_of_distinct distinct program.arena⟩

theorem forall₂_filterMap {Source Target : Type}
    {related : Source → Target → Prop} {read : Source → Option Target}
    {sources : List Source}
    (found : ∀ source ∈ sources,
      ∃ target, read source = some target ∧ related source target) :
    List.Forall₂ related sources (sources.filterMap read) := by
  induction sources with
  | nil => exact .nil
  | cons first rest inductionHypothesis =>
      obtain ⟨target, isRead, pair⟩ := found first List.mem_cons_self
      rw [List.filterMap_cons_some isRead]
      exact .cons pair (inductionHypothesis fun source member =>
        found source (List.mem_cons_of_mem _ member))

theorem exists_related {Source Target : Type}
    {related : Source → Target → Prop} {sources : List Source}
    {targets : List Target} (pairs : List.Forall₂ related sources targets)
    {source : Source} (member : source ∈ sources) :
    ∃ target, related source target := by
  have both : List.Forall₂ (fun source target =>
      (∃ target, related source target) ∧ related source target)
      sources targets := pairs.imp fun _ target pair => ⟨⟨target, pair⟩, pair⟩
  exact ((List.forall₂_and_left _ _).mp both).1 source member

theorem mem_of_lastDeclared? {programs : List Program} {name : String}
    {program : Program} {last : FunctionDecl}
    (isLast : lastDeclared? programs name = some (program, last)) :
    program ∈ programs ∧ program.kind ≠ .library ∧
      last ∈ program.functions ∧ last.resolvedName = name := by
  have found := List.mem_of_find?_eq_some isLast
  obtain ⟨known, notLibrary, member⟩ :=
    mem_of_mem_ownFunctions (List.mem_reverse.mp found)
  exact ⟨known, notLibrary, member, by simpa using List.find?_some isLast⟩

theorem isSelected_of_isRequired {kind : SourceKind} {context : MaskingContext}
    {function : FunctionDecl} {name : String}
    (required : context.isRequired name = true)
    (named : function.resolvedName = name) :
    isSelected kind context function = true := by
  rw [isSelected, named, required, Bool.true_or]

theorem assembleSignatures_spec {programs masked : List Program}
    {context : MaskingContext}
    (succeeds : maskSources programs = (.ok masked, context))
    (closed : ∀ program ∈ programs, program.Closed) :
    context.processed.Nodup ∧
      List.Forall₂ (fun name signature => ∃ program first last,
          Shows programs context name signature program first last ∧
            (signature = last.declaredSignature (.ofPrograms programs) name
                program ↔
              Matches programs name program first last))
        context.processed (assembleSignatures context masked) := by
  obtain ⟨consistent, recorded⟩ := records_of_maskSources succeeds closed
  have passes := masksPrograms_of_maskSources succeeds
  refine ⟨consistent.distinct, ?_⟩
  unfold assembleSignatures resolvedFunctions
  rw [List.map_filterMap, passes.declarations_eq]
  refine forall₂_filterMap fun name processed => ?_
  obtain ⟨required, program, last, isLast, records⟩ := recorded name processed
  obtain ⟨first, isFirst, isProcessed⟩ := processedFunction?_of_last isLast
  have rel := passes.processedFunction?_rel name
  rw [isProcessed] at rel
  generalize processedFunction? masked name = found at rel ⊢
  rcases rel with @⟨_, ⟨target, function⟩, stands⟩
  -- Both functions have the required name, so masking has selected them both.
  obtain ⟨-, -, member, named⟩ := mem_of_lastDeclared? isLast
  have firstNamed : first.resolvedName = name := by
    simpa using List.find?_some isFirst
  have signature : (ResolvedFunction.ofDecl (.ofPrograms programs) name
        target.path function).signature ((context.records? name).getD []) =
      (first.declaredSignature (.ofPrograms programs) name program).withRecords
        (recordsOf program.arena last) := by
    rw [stands.masks.path, records]
    exact stands.counterpart.masks.signature_eq
      (isSelected_of_isRequired required firstNamed) _ _ _ _
  obtain ⟨_, counterpart⟩ := exists_related stands.masks.functions member
  have shows : (first.declaredSignature (.ofPrograms programs) name
        program).withRecords (recordsOf program.arena last) =
      last.declaredSignature (.ofPrograms programs) name program ↔
        Matches programs name program first last :=
    withRecords_eq_declaredSignature_iff
      (counterpart.masks.unreserved (isSelected_of_isRequired required named))
  rw [← signature] at shows
  exact ⟨_, rfl, program, first, last, ⟨isLast, isFirst, records, signature⟩,
    shows⟩

/-! ## Transformations -/

theorem closed_of_parseAll {sources : List BuildSource}
    {diagnostics : Diagnostics} :
    ∀ program ∈ (Build.parseAll sources diagnostics).1, program.Closed := by
  induction sources generalizing diagnostics with
  | nil => simp [Build.parseAll]
  | cons first rest inductionHypothesis =>
      intro program member
      unfold Build.parseAll at member
      split at member
      · rename_i parsed
        rcases List.mem_cons.mp member with rfl | later
        · exact SourceText.closed_of_parse parsed
        · exact inductionHypothesis program later
      · exact inductionHypothesis program member

theorem masks_of_transform {build after : Build} {sources : List BuildSource}
    {transformed : Transformed}
    (accepts : build.transform sources = (.ok transformed, after)) :
    after.transformed = some transformed ∧
      (∀ program ∈ transformed.parsed, program.Closed) ∧
        maskSources transformed.parsed =
          (.ok transformed.programs, after.context) := by
  unfold Build.transform at accepts
  dsimp only at accepts
  split at accepts
  · cases accepts
  · split at accepts
    · rename_i masks
      cases accepts
      exact ⟨rfl, closed_of_parseAll, Prod.ext masks rfl⟩
    · cases accepts

/-- A build has a manifest behind every transformation that is accepted. -/
theorem exists_manifest {build after : Build} {sources : List BuildSource}
    {transformed : Transformed}
    (accepts : build.transform sources = (.ok transformed, after)) :
    ∃ manifest, after.manifest = .ok manifest ∧
      manifest.functions =
        assembleSignatures after.context transformed.programs := by
  obtain ⟨isTransformed, -, -⟩ := masks_of_transform accepts
  have ensured : after.ensureTransformed = .ok transformed := by
    simp [Build.ensureTransformed, isTransformed]
  unfold Build.manifest
  rw [ensured]
  exact ⟨_, rfl, rfl⟩

/-- Under every processed name a manifest shows one signature, and it is that of
the last function of the name exactly if the first one of that program
matches. -/
theorem manifest_shows_last_iff {build after : Build}
    {sources : List BuildSource} {transformed : Transformed}
    (accepts : build.transform sources = (.ok transformed, after)) :
    ∃ manifest, after.manifest = .ok manifest ∧
      after.context.processed.Nodup ∧
        List.Forall₂ (fun name signature => ∃ program first last,
            Shows transformed.parsed after.context name signature program first
              last ∧
            (signature = last.declaredSignature
                (.ofPrograms transformed.parsed) name program ↔
              Matches transformed.parsed name program first last))
          after.context.processed manifest.functions := by
  obtain ⟨isTransformed, closed, succeeds⟩ := masks_of_transform accepts
  have ensured : after.ensureTransformed = .ok transformed := by
    simp [Build.ensureTransformed, isTransformed]
  unfold Build.manifest
  rw [ensured]
  exact ⟨_, rfl, assembleSignatures_spec succeeds closed⟩

/-! ## Names with several functions -/

namespace Sample

def build : Build :=
  .start .standard none
    ⟨"00000000-0000-4000-8000-000000000000", "2000-01-01T00:00:00.000Z"⟩

def second : String :=
  "export function f(x: string = \"q\"): string \x7b return x; \x7d"

def first : String :=
  "export function f(a: i32): i32 \x7b return a; \x7d "

/-- Both functions in files of their own. -/
def apart : List BuildSource :=
  [⟨⟨"assembly/other.ts", first⟩, .user⟩,
    ⟨⟨"assembly/index.ts", second⟩, .entry⟩]

/-- Both functions in one file. -/
def together : List BuildSource :=
  [⟨⟨"assembly/index.ts", first ++ second⟩, .entry⟩]

/-- The names that are processed, those of the parameters that the manifest
shows, and those of the parameters of the last `f`. -/
def parameterNames (sources : List BuildSource) :
    Option (List String × List (List String) × Option (List String)) :=
  match build.transform sources with
  | (.ok transformed, after) =>
      after.manifest.toOption.map fun manifest =>
        (after.context.processed,
          manifest.functions.map fun signature =>
            signature.parameters.map Parameter.name,
          (lastDeclared? transformed.parsed "f").map fun last =>
            last.2.params.map fun param => param.name.text)
  | _ => none

end Sample

theorem exists_transformed {build : Build} {sources : List BuildSource}
    (accepted : (build.transform sources).1.isOk = true) :
    ∃ transformed after,
      build.transform sources = (.ok transformed, after) := by
  generalize build.transform sources = result at accepted ⊢
  rcases result with ⟨_ | transformed, after⟩
  · cases accepted
  · exact ⟨transformed, after, rfl⟩

/-- Of two files with a function of one name the last one is shown. -/
theorem manifest_shows_last_of_apart :
    ∃ transformed after,
      Sample.build.transform Sample.apart = (.ok transformed, after) ∧
      ∃ manifest, after.manifest = .ok manifest ∧
        after.context.processed.Nodup ∧
          List.Forall₂ (fun name signature => ∃ program first last,
              Shows transformed.parsed after.context name signature program
                first last ∧
              (signature = last.declaredSignature
                  (.ofPrograms transformed.parsed) name program ↔
                Matches transformed.parsed name program first last))
            after.context.processed manifest.functions := by
  have accepted : (Sample.build.transform Sample.apart).1.isOk = true := by
    decide +kernel
  obtain ⟨transformed, after, accepts⟩ := exists_transformed accepted
  exact ⟨transformed, after, accepts, manifest_shows_last_iff accepts⟩

/-- Of two functions of one name in one file the manifest shows the first one,
with the defaults of the last one. -/
theorem manifest_shows_first_of_together :
    ¬ ∀ (build after : Build) (sources : List BuildSource)
      (transformed : Transformed),
      build.transform sources = (.ok transformed, after) →
        ∃ manifest, after.manifest = .ok manifest ∧
          List.Forall₂ (fun name signature => ∃ program last,
              lastDeclared? transformed.parsed name = some (program, last) ∧
                signature = last.declaredSignature
                  (.ofPrograms transformed.parsed) name program)
            after.context.processed manifest.functions := by
  intro claim
  have seen : Sample.parameterNames Sample.together =
      some (["f"], [["a"]], some ["x"]) := by
    decide +kernel
  unfold Sample.parameterNames at seen
  generalize accepts : Sample.build.transform Sample.together = result at seen
  obtain ⟨_ | transformed, after⟩ := result
  · cases seen
  obtain ⟨manifest, isManifest, pairs⟩ := claim _ _ _ _ accepts
  simp only [isManifest, Except.toOption, Option.map_some, Option.some.injEq,
    Prod.mk.injEq, Option.map_eq_some_iff] at seen
  obtain ⟨processed, shown, last, isLast, params⟩ := seen
  rw [processed] at pairs
  generalize manifest.functions = functions at pairs shown
  rcases pairs with _ | ⟨⟨program, function, isFunction, rfl⟩, _ | _⟩
  cases isLast.symm.trans isFunction
  have first := congrArg List.head? (List.singleton_inj.mp shown)
  simp [FunctionDecl.declaredSignature, FunctionDecl.declaredParameter,
    Function.comp_def, params] at first

end PluginSurface
