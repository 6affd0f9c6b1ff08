import PluginSurface.Proofs.Build.TypeTable
import PluginSurface.Proofs.Optional.Defaults
import PluginSurface.Proofs.Surface.Manifest
import PluginSurface.Proofs.Wasm.Attachment

/-!
# Reading embedded manifests

What is read from a module is the manifest that was embedded, but for defaults
that are null: a member of a document that is null says the same as one that is
not there.
-/

namespace PluginSurface

/-! ## Reading after embedding -/

/-- What is read from a module is what the payload stands for. -/
theorem Manifest.extract?_of_embed {manifest found : Manifest}
    {sectionName : String} {input output : List UInt8} {summary : EmbedSummary}
    (embeds : manifest.embed sectionName input = .ok (output, summary))
    (decodes : decode? manifest.payload = some found) :
    extract? sectionName output = .ok (some found) := by
  obtain ⟨-, _, items, -, rfl, valid, -⟩ := embed_ok embeds
  have read := Wasm.read?_encode_of_isValidModule valid
  have attaches := Wasm.attached_attach ⟨sectionName, manifest.payload⟩ items
  have framed := Wasm.isFramed_of_read? read attaches.mem_toSection
  have named := Wasm.Custom.isNamed_toSection framed
  have held : (Wasm.Custom.toSection ⟨sectionName, manifest.payload⟩).custom? =
      some ⟨sectionName, manifest.payload⟩ :=
    Wasm.Custom.ofBody?_toSection framed
  rw [extract?, read]
  dsimp only
  rw [attaches.find?_isNamed named]
  dsimp only
  rw [held, Option.bind_some, decodes]

theorem map_eq_self_iff {Part : Type} {change : Part → Part}
    {parts : List Part} :
    parts.map change = parts ↔ ∀ part ∈ parts, change part = part := by
  have pointwise : parts.map change = parts.map id ↔
      ∀ part ∈ parts, change part = id part := List.map_inj_left
  rwa [List.map_id] at pointwise

/-- A manifest is left as it is if no default is null. -/
theorem Manifest.withoutNulls_eq_iff (manifest : Manifest) :
    manifest.withoutNulls = manifest ↔ .null ∉ manifest.defaults := by
  have functions : manifest.withoutNulls = manifest ↔
      manifest.functions.map FunctionSignature.withoutNulls =
        manifest.functions := by
    obtain ⟨_, _, _, _, _, functions, _⟩ := manifest
    simp [withoutNulls]
  have parameters (signature : FunctionSignature) :
      signature.withoutNulls = signature ↔
        ∀ parameter ∈ signature.parameters,
          parameter.default? ≠ some .null := by
    obtain ⟨_, params, _⟩ := signature
    simp only [FunctionSignature.withoutNulls, FunctionSignature.mk.injEq,
      true_and, and_true, map_eq_self_iff, Parameter.withoutNull_eq_iff]
  simp only [functions, map_eq_self_iff, parameters, defaults,
    List.mem_flatMap, List.mem_filterMap, not_exists, not_and]

/-! ## Defaults -/

/-- A default that a function shows belongs to one of its parameters. -/
theorem FunctionDecl.mem_of_defaultOf? {function : FunctionDecl}
    {name : String} {initializer : ExprId}
    (found : function.defaultOf? name = some initializer) :
    ∃ param ∈ function.params, param.initializer = some initializer := by
  obtain ⟨param, member, same⟩ := List.exists_of_findSome?_eq_some found
  split at same
  · exact ⟨param, member, same⟩
  · cases same

/-- A default that a manifest tells is that of a parameter in a program. -/
theorem exists_standalone_of_mem_defaults {build after : Build}
    {sources : List BuildSource} {transformed : Transformed}
    (accepts : build.transform sources = (.ok transformed, after))
    {manifest : Manifest} (assembled : after.manifest = .ok manifest)
    {value : Json} (member : value ∈ manifest.defaults) :
    ∃ tree : ExprTree, tree.Standalone ∧ tree.json? = some value := by
  obtain ⟨-, closed, succeeds⟩ := masks_of_transform accepts
  obtain ⟨_, isManifest, functions⟩ := exists_manifest accepts
  cases assembled.symm.trans isManifest
  have shown := (assembleSignatures_spec succeeds closed).2
  rw [← functions] at shown
  obtain ⟨signature, isSignature, inSignature⟩ := List.mem_flatMap.mp member
  obtain ⟨parameter, isParameter, isDefault⟩ :=
    List.mem_filterMap.mp inSignature
  obtain ⟨name, _, program, first, last, shows, _⟩ :=
    exists_of_mem_right shown isSignature
  rw [shows.signature] at isParameter
  obtain ⟨declared, _, rfl⟩ := List.mem_map.mp isParameter
  have recorded : ((last.defaultOf? declared.name).map
      program.arena.defaultJson?).join = some value := by
    rw [← recordedDefault?_recordsOf]
    exact isDefault
  obtain ⟨found, isFound, isValue⟩ := Option.map_eq_some_iff.mp
    (Option.join_eq_some_iff.mp recorded)
  obtain ⟨param, inParams, initialized⟩ :=
    FunctionDecl.mem_of_defaultOf? isFound
  obtain ⟨known, _, inProgram, _⟩ := mem_of_lastDeclared? shows.isLast
  have topLevel := Program.item_grammatical
    (grammatical_of_transform accepts program known)
    (Program.mem_functions_iff.mp inProgram)
  have slot := topLevel.grammatical.params _ (List.mem_map_of_mem inParams)
  exact ⟨_, slot.1.initializer _ (by simp [Param.tree, initialized]), isValue⟩

/-- What reading a manifest takes for granted of its numbers: those of its
types fit in 32 bits, and real numbers are read as they were written. -/
structure Manifest.NumbersRead (manifest : Manifest) : Prop where
  words : ∀ definition ∈ manifest.types, definition.Fits
  reals : ∀ value ∈ manifest.defaults, ∀ real,
    .real real ∈ value.numbers → (JsonNumber.real real).ReadsBack

theorem decode?_assembled {build after : Build} {sources : List BuildSource}
    {transformed : Transformed}
    (accepts : build.transform sources = (.ok transformed, after))
    {manifest : Manifest} (assembled : after.manifest = .ok manifest)
    (numbersRead : manifest.NumbersRead) :
    Manifest.decode? manifest.payload = some manifest.withoutNulls := by
  have isDefault (value : Json) (member : value ∈ manifest.defaults) :
      ∃ nesting < Grammar.nestingLimit, value.IsDefault nesting := by
    obtain ⟨tree, standalone, known⟩ :=
      exists_standalone_of_mem_defaults accepts assembled member
    exact ⟨tree.nesting, standalone.shallow,
      ExprTree.json?_isDefault tree known⟩
  refine Manifest.decode?_payload
    ⟨⟨numbersRead.words, fun value member => ?_, fun value member => ?_⟩,
      fun value member number inValue => ?_⟩
  · obtain ⟨_, _, fits⟩ := isDefault value member
    exact fits.sorted
  · obtain ⟨nesting, shallow, fits⟩ := isDefault value member
    have enough : Grammar.nestingLimit ≤ Document.defaultDepth := by decide
    exact Nat.le_trans fits.shallow (Nat.le_trans shallow enough)
  · obtain ⟨_, _, fits⟩ := isDefault value member
    cases number with
    | whole held =>
        obtain ⟨least, greatest⟩ := fits.integers _ inValue
        exact Document.readsBack_whole least greatest
    | real held => exact numbersRead.reals value member held inValue

/-- What is read from a module with the manifest of a build is the manifest
without its null defaults, so it is the manifest exactly if no parameter has
one. -/
theorem extract?_embedded {build after : Build} {sources : List BuildSource}
    {transformed : Transformed}
    (accepts : build.transform sources = (.ok transformed, after))
    {manifest : Manifest} (assembled : after.manifest = .ok manifest)
    (numbersRead : manifest.NumbersRead) {sectionName : String}
    {input output : List UInt8} {summary : EmbedSummary}
    (embeds : manifest.embed sectionName input = .ok (output, summary)) :
    Manifest.extract? sectionName output = .ok (some manifest.withoutNulls) ∧
      (manifest.withoutNulls = manifest ↔ .null ∉ manifest.defaults) :=
  ⟨Manifest.extract?_of_embed embeds
    (decode?_assembled accepts assembled numbersRead),
    manifest.withoutNulls_eq_iff⟩

/-! ## Null as a default -/

namespace Sample

def nullDefault : List BuildSource :=
  [⟨⟨"assembly/index.ts",
    "export function f(a: string | null = null): void \x7b\x7d"⟩, .entry⟩]

def emptyModule : List UInt8 :=
  Wasm.encode []

def nullTransformed : Transformed :=
  ((build.transform nullDefault).1.toOption).getD default

def nullBuild : Build :=
  (build.transform nullDefault).2

/-- The manifest of the build, with the one type that it needs. -/
def nullManifest : Manifest where
  buildId := build.identity.id
  buildTime := build.identity.time
  plugin := build.settings.identity
  library := libraryIdentity
  revision := build.revision
  functions := assembleSignatures nullBuild.context nullTransformed.programs
  types := [⟨2, 0, "~lib/string/String", "string", none⟩]

def isNull : Json → Bool
  | .null => true
  | _ => false

theorem defaults_nullManifest : nullManifest.defaults = [.null] := by
  have seen : nullManifest.defaults.map isNull = [true] := by
    unfold Manifest.defaults
    decide +kernel
  obtain ⟨value, alone, known⟩ := List.map_eq_singleton_iff.mp seen
  cases value <;> first | exact alone | cases known

theorem transform_nullDefault :
    build.transform nullDefault = (.ok nullTransformed, nullBuild) := by
  have accepted : (build.transform nullDefault).1.isOk = true := by
    decide +kernel
  obtain ⟨transformed, after, accepts⟩ := exists_transformed accepted
  rw [nullTransformed, nullBuild, accepts]
  rfl

theorem roots_nullBuild :
    (resolvedFunctions nullBuild.context nullTransformed.programs).flatMap
        ResolvedFunction.types =
      [.nullable .string, .primitive .u64, .primitive .void] := by
  decide +kernel

/-- The only type that is mentioned and not held in place is that of texts. -/
theorem typeTable_string (declarations : Declarations) :
    declarations.typeTable
        [.nullable .string, .primitive .u64, .primitive .void] =
      [⟨2, 0, "~lib/string/String", "string", none⟩] := by
  have later : declarations.discover [DataType.string.path]
      (DataType.string.children ++ declarations.fieldTypes .string ++
        [.primitive .u64, .primitive .void]) = [] := by
    change declarations.discover _ [.primitive .u64, .primitive .void] = []
    rw [Declarations.discover, Declarations.discover, Declarations.discover]
  rw [Declarations.typeTable, Declarations.discover,
    Declarations.discover.eq_4 _ _ .string _ (by simp) (by simp),
    if_neg List.not_mem_nil, later]
  rfl

theorem manifest_nullBuild : nullBuild.manifest = .ok nullManifest := by
  have isTransformed := (masks_of_transform transform_nullDefault).1
  have same : nullBuild.identity = build.identity ∧
      nullBuild.settings.identity = build.settings.identity ∧
        nullBuild.revision = build.revision := by
    decide +kernel
  have types : assembleTypes nullBuild.context nullTransformed.programs =
      nullManifest.types := by
    rw [assembleTypes, roots_nullBuild, typeTable_string, nullManifest]
  unfold Build.manifest Build.ensureTransformed
  rw [isTransformed]
  change Except.ok (Manifest.mk _ _ _ _ _ _ _) = _
  rw [types, same.1, same.2.1, same.2.2]
  rfl

theorem numbersRead_nullManifest : nullManifest.NumbersRead where
  words := List.forall_mem_singleton.mpr
    ⟨show 2 < 4294967296 by decide, show 0 < 4294967296 by decide, nofun⟩
  reals value member real inValue := by
    rw [defaults_nullManifest] at member
    cases List.mem_singleton.mp member
    cases inValue

theorem exists_embedded_nullManifest :
    ∃ output summary,
      nullManifest.embed "meta" emptyModule = .ok (output, summary) :=
  Manifest.exists_embedded (by decide +kernel)

end Sample

theorem extract?_embedded_of_null :
    Sample.build.transform Sample.nullDefault =
        (.ok Sample.nullTransformed, Sample.nullBuild) ∧
      Sample.nullBuild.manifest = .ok Sample.nullManifest ∧
      Sample.nullManifest.NumbersRead ∧
      ∃ output summary,
        Sample.nullManifest.embed "meta" Sample.emptyModule =
            .ok (output, summary) ∧
          Manifest.extract? "meta" output =
            .ok (some Sample.nullManifest.withoutNulls) ∧
          (Sample.nullManifest.withoutNulls = Sample.nullManifest ↔
            .null ∉ Sample.nullManifest.defaults) := by
  obtain ⟨output, summary, embeds⟩ := Sample.exists_embedded_nullManifest
  exact ⟨Sample.transform_nullDefault, Sample.manifest_nullBuild,
    Sample.numbersRead_nullManifest, output, summary, embeds,
    extract?_embedded Sample.transform_nullDefault Sample.manifest_nullBuild
      Sample.numbersRead_nullManifest embeds⟩

/-- A default that is null is gone when the manifest is read. -/
theorem extract?_drops_null :
    ¬ ∀ (build after : Build) (sources : List BuildSource)
      (transformed : Transformed) (manifest : Manifest) (sectionName : String)
      (input output : List UInt8) (summary : EmbedSummary),
      build.transform sources = (.ok transformed, after) →
      after.manifest = .ok manifest → manifest.NumbersRead →
      manifest.embed sectionName input = .ok (output, summary) →
        Manifest.extract? sectionName output = .ok (some manifest) := by
  intro claim
  obtain ⟨output, summary, embeds⟩ := Sample.exists_embedded_nullManifest
  have kept := claim _ _ _ _ _ _ _ _ _ Sample.transform_nullDefault
    Sample.manifest_nullBuild Sample.numbersRead_nullManifest embeds
  rw [Manifest.extract?_of_embed embeds (decode?_assembled
    Sample.transform_nullDefault Sample.manifest_nullBuild
    Sample.numbersRead_nullManifest)] at kept
  have same : Sample.nullManifest.withoutNulls = Sample.nullManifest :=
    Option.some.inj (Except.ok.inj kept)
  refine (Manifest.withoutNulls_eq_iff _).mp same ?_
  rw [Sample.defaults_nullManifest]
  exact List.mem_singleton_self _

end PluginSurface
