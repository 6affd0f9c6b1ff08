import PluginSurface.Proofs.Json.Documents
import PluginSurface.Surface.Manifest
import PluginSurface.Wasm.Embedding

/-!
# Manifests are read as they were written

All of a manifest is read back from its text but a default that is null, which
is read as no default.
-/

namespace PluginSurface

/-! ## What reading keeps -/

/-- A value other than null. -/
def Json.nonNull? : Json → Option Json
  | .null => none
  | value => some value

def Parameter.withoutNull (parameter : Parameter) : Parameter :=
  { parameter with default? := parameter.default?.bind Json.nonNull? }

def FunctionSignature.withoutNulls (signature : FunctionSignature) :
    FunctionSignature :=
  { signature with parameters := signature.parameters.map Parameter.withoutNull }

/-- A manifest without the defaults that are null. -/
def Manifest.withoutNulls (manifest : Manifest) : Manifest :=
  { manifest with
    functions := manifest.functions.map FunctionSignature.withoutNulls }

/-- The defaults of all parameters of a manifest. -/
def Manifest.defaults (manifest : Manifest) : List Json :=
  manifest.functions.flatMap fun signature =>
    signature.parameters.filterMap Parameter.default?

theorem Parameter.withoutNull_eq_iff (parameter : Parameter) :
    parameter.withoutNull = parameter ↔ parameter.default? ≠ some .null := by
  obtain ⟨name, type, isOptional, default?⟩ := parameter
  rcases default? with _ | value
  · simp [withoutNull]
  · cases value <;> simp [withoutNull, Json.nonNull?]

/-! ## Records -/

/-- Whether a number fits in 32 bits. -/
def IsWord (value : Nat) : Prop :=
  value < 4294967296

/-- Whether the numbers of a type fit in 32 bits. -/
structure TypeDefinition.Fits (definition : TypeDefinition) : Prop where
  id : IsWord definition.id
  size : IsWord definition.size
  offsets : ∀ fields ∈ definition.fields, ∀ field ∈ fields, IsWord field.offset

namespace Document

open Json (toDocument)

theorem mapM_toDocuments {Part : Type} {write : Part → Json}
    {read : Document → Option Part} (shown : Part → Part) {parts : List Part}
    (reads : ∀ part ∈ parts, read (write part).toDocument = some (shown part)) :
    (Json.toDocuments (parts.map write)).mapM read =
      some (parts.map shown) := by
  induction parts with
  | nil => rfl
  | cons part parts inductionHypothesis =>
      have later := inductionHypothesis fun part member =>
        reads part (List.mem_cons_of_mem _ member)
      rw [List.map_cons, Json.toDocuments, List.mapM_cons,
        reads part List.mem_cons_self, later]
      rfl

theorem word?_ofNat {value : Nat} (fits : IsWord value) :
    (Json.ofNat value).toDocument.word? = some value := by
  have small : (value : Int) < 4294967296 := Int.ofNat_lt.mpr fits
  simp [Json.ofNat, toDocument, word?, small]

theorem typeRef?_toJson (type : TypeRef) :
    type.toJson.toDocument.typeRef? = some type := by
  simp [TypeRef.toJson, toDocument, Json.toDocumentMembers, typeRef?, parts?,
    knownMembers?, text?]

/-- A default is read back unless it is null. -/
theorem nullable?_toDocument {value : Json} (sorted : value.IsSorted)
    (shallow : value.depth ≤ defaultDepth) :
    nullable? (value? defaultDepth) (some value.toDocument) =
      some value.nonNull? := by
  have read := Json.value?_toDocument value defaultDepth sorted shallow
  cases value <;> simp only [toDocument] at read ⊢ <;>
    simp [nullable?, read, Json.nonNull?]

theorem parameter?_toJson {parameter : Parameter}
    (fits : ∀ value ∈ parameter.default?,
      value.IsSorted ∧ value.depth ≤ defaultDepth) :
    parameter.toJson.toDocument.parameter? = some parameter.withoutNull := by
  obtain ⟨name, type, isOptional, default?⟩ := parameter
  rcases default? with _ | value
  · simp [Parameter.toJson, toDocument, Json.toDocumentMembers, parameter?,
      parts?, knownMembers?, text?, bool?, nullable?, typeRef?_toJson,
      Parameter.withoutNull]
  · obtain ⟨sorted, shallow⟩ := fits value rfl
    simp [Parameter.toJson, toDocument, Json.toDocumentMembers, parameter?,
      parts?, knownMembers?, text?, bool?, nullable?_toDocument sorted shallow,
      typeRef?_toJson, Parameter.withoutNull]

theorem signature?_toJson {signature : FunctionSignature}
    (fits : ∀ parameter ∈ signature.parameters,
      ∀ value ∈ parameter.default?,
        value.IsSorted ∧ value.depth ≤ defaultDepth) :
    signature.toJson.toDocument.signature? = some signature.withoutNulls := by
  have parameters := mapM_toDocuments _ fun parameter member =>
    parameter?_toJson (fits parameter member)
  simp [FunctionSignature.toJson, toDocument, Json.toDocumentMembers,
    signature?, parts?, knownMembers?, text?, items?, parameters,
    typeRef?_toJson, FunctionSignature.withoutNulls]

theorem field?_of_parts {offset type : Document} {field : Field}
    (offsetRead : offset.word? = some field.offset)
    (typeRead : type.typeRef? = some field.type) :
    field? (.object
      [(some "offset", offset), (some "name", .string (some field.name)),
        (some "type", type)]) = some field := by
  simp [field?, parts?, knownMembers?, text?, offsetRead, typeRead]

theorem field?_toJson {field : Field} (fits : IsWord field.offset) :
    field.toJson.toDocument.field? = some field := by
  simp only [Field.toJson, toDocument, Json.toDocumentMembers]
  exact field?_of_parts (word?_ofNat fits) (typeRef?_toJson field.type)

theorem fields?_toJson {fields : List Field}
    (fits : ∀ field ∈ fields, IsWord field.offset) :
    (Json.array (fields.map Field.toJson)).toDocument.fields? =
      some fields := by
  have read := mapM_toDocuments id fun field member =>
    field?_toJson (fits field member)
  simpa [toDocument, fields?, items?] using read

theorem typeDefinition?_of_parts {id size : Document}
    {fields : List (Option String × Document)} {definition : TypeDefinition}
    (idRead : id.word? = some definition.id)
    (sizeRead : size.word? = some definition.size)
    (fieldsRead : ∃ shown, fields = shown.toList.map (some "fields", ·) ∧
      nullable? fields? shown = some definition.fields) :
    typeDefinition? (.object (
      [(some "id", id), (some "size", size),
        (some "path", .string (some definition.path)),
        (some "name", .string (some definition.name))] ++ fields)) =
      some definition := by
  obtain ⟨shown, rfl, read⟩ := fieldsRead
  cases shown <;>
    simp [typeDefinition?, parts?, knownMembers?, text?, idRead, sizeRead, read]

theorem typeDefinition?_toJson {definition : TypeDefinition}
    (fits : definition.Fits) :
    definition.toJson.toDocument.typeDefinition? = some definition := by
  have offsets := fits.offsets
  have parts {fields : List (Option String × Document)} :=
    @typeDefinition?_of_parts _ _ fields _ (word?_ofNat fits.id)
      (word?_ofNat fits.size)
  obtain ⟨id, size, path, name, fields?⟩ := definition
  rcases fields? with _ | fields
  · exact parts ⟨none, rfl, rfl⟩
  · refine parts ⟨some _, rfl, ?_⟩
    have fieldsRead := fields?_toJson (offsets fields rfl)
    simp only [toDocument] at fieldsRead
    simp [nullable?, toDocument, fieldsRead]

end Document

/-! ## Manifests -/

/-- Whether a manifest keeps within what reading takes: its numbers fit in 32
bits, and its defaults have sorted objects and do not nest too deep. -/
structure Manifest.Fits (manifest : Manifest) : Prop where
  types : ∀ definition ∈ manifest.types, definition.Fits
  sorted : ∀ value ∈ manifest.defaults, value.IsSorted
  shallow : ∀ value ∈ manifest.defaults, value.depth ≤ Document.defaultDepth

theorem Document.manifest?_toJson {manifest : Manifest}
    (fits : manifest.Fits) :
    manifest.toJson.toDocument.manifest? = some manifest.withoutNulls := by
  have functions := mapM_toDocuments _ fun (signature : FunctionSignature)
      (member : signature ∈ manifest.functions) =>
    signature?_toJson fun parameter isParameter value isDefault =>
      have held : value ∈ manifest.defaults :=
        List.mem_flatMap.mpr ⟨signature, member,
          List.mem_filterMap.mpr ⟨parameter, isParameter, isDefault⟩⟩
      ⟨fits.sorted value held, fits.shallow value held⟩
  have types : (Json.toDocuments (manifest.types.map
      TypeDefinition.toJson)).mapM typeDefinition? =
        some (manifest.types.map id) :=
    mapM_toDocuments id fun definition member =>
      typeDefinition?_toJson (fits.types definition member)
  obtain ⟨buildId, buildTime, plugin, library, revision, _, _⟩ := manifest
  simp only [Manifest.withoutNulls, List.map_id] at functions types ⊢
  rcases revision with _ | ⟨repository, commit⟩ <;>
    simp [Manifest.toJson, Manifest.revisionMembers, Json.toDocument,
      Json.toDocumentMembers, manifest?, knownMembers?, manifestKeys,
      othersHaveValues, revision?, onlyText?, text?, items?, functions, types,
      guard, value?]

/-! ## Numbers -/

theorem itemNumbers_readBack {Part : Type} (write : Part → Json)
    (parts : List Part)
    (readsBack : ∀ part ∈ parts, ∀ number ∈ (write part).numbers,
      number.ReadsBack) :
    ∀ number ∈ Json.itemNumbers (parts.map write), number.ReadsBack := by
  induction parts with
  | nil => simp [Json.itemNumbers]
  | cons part parts inductionHypothesis =>
      intro number member
      rcases List.mem_append.mp member with first | later
      · exact readsBack part List.mem_cons_self number first
      · exact inductionHypothesis (fun part member =>
          readsBack part (List.mem_cons_of_mem _ member)) number later

theorem readsBack_word {value : Nat} (fits : IsWord value) :
    (JsonNumber.whole value).ReadsBack := by
  unfold IsWord at fits
  exact Document.readsBack_whole (by omega) (by omega)

theorem Parameter.numbers_readBack {parameter : Parameter}
    (readsBack : ∀ value ∈ parameter.default?, ∀ number ∈ value.numbers,
      number.ReadsBack) :
    ∀ number ∈ parameter.toJson.numbers, number.ReadsBack := by
  obtain ⟨name, type, isOptional, default?⟩ := parameter
  rcases default? with _ | value
  · simp [toJson, Json.numbers, Json.memberNumbers, TypeRef.toJson]
  · simpa [toJson, Json.numbers, Json.memberNumbers, TypeRef.toJson] using
      readsBack value rfl

theorem TypeDefinition.numbers_readBack {definition : TypeDefinition}
    (fits : definition.Fits) :
    ∀ number ∈ definition.toJson.numbers, number.ReadsBack := by
  intro number member
  have idRead := readsBack_word fits.id
  have sizeRead := readsBack_word fits.size
  have offsets := fits.offsets
  obtain ⟨id, size, path, name, fields?⟩ := definition
  rcases fields? with _ | fields
  · simp only [toJson, Json.numbers, Json.memberNumbers, Json.ofNat,
      List.append_nil, List.cons_append, List.nil_append, List.mem_cons,
      List.not_mem_nil, or_false] at member
    rcases member with rfl | rfl
    · exact idRead
    · exact sizeRead
  · simp only [toJson, Json.numbers, Json.memberNumbers, Json.ofNat,
      List.append_nil, List.cons_append, List.nil_append,
      List.mem_cons] at member
    rcases member with rfl | rfl | inFields
    · exact idRead
    · exact sizeRead
    · refine itemNumbers_readBack _ _ (fun field isField number held => ?_) number
        inFields
      have same : number = .whole field.offset := by
        simpa [Field.toJson, Json.numbers, Json.memberNumbers, Json.ofNat,
          TypeRef.toJson] using held
      rw [same]
      exact readsBack_word (offsets fields rfl field isField)

theorem Manifest.numbers_readBack {manifest : Manifest} (fits : manifest.Fits)
    (readsBack : ∀ value ∈ manifest.defaults, ∀ number ∈ value.numbers,
      number.ReadsBack) :
    ∀ number ∈ manifest.toJson.numbers, number.ReadsBack := by
  have functions := itemNumbers_readBack FunctionSignature.toJson
    manifest.functions
    fun signature isFunction number held => by
      have parameters := itemNumbers_readBack Parameter.toJson
        signature.parameters fun parameter isParameter =>
          Parameter.numbers_readBack fun value isDefault =>
            readsBack value (List.mem_flatMap.mpr ⟨signature, isFunction,
              List.mem_filterMap.mpr ⟨parameter, isParameter, isDefault⟩⟩)
      refine parameters number ?_
      simpa [FunctionSignature.toJson, Json.numbers, Json.memberNumbers,
        TypeRef.toJson] using held
  have types := itemNumbers_readBack TypeDefinition.toJson manifest.types
    fun definition isType =>
      TypeDefinition.numbers_readBack (fits.types definition isType)
  intro number member
  have split : number ∈ Json.itemNumbers
        (manifest.functions.map FunctionSignature.toJson) ∨
      number ∈ Json.itemNumbers (manifest.types.map TypeDefinition.toJson) := by
    obtain ⟨_, _, _, _, revision, _, _⟩ := manifest
    rcases revision with _ | revision <;>
      simpa [toJson, revisionMembers, Json.numbers, Json.memberNumbers]
        using member
  rcases split with inFunctions | inTypes
  · exact functions number inFunctions
  · exact types number inTypes

/-! ## Texts -/

/-- Whether the text of a manifest can be read: it keeps within what reading
takes, and the numbers of its defaults are read as they were written. -/
structure Manifest.Readable (manifest : Manifest) : Prop where
  fits : manifest.Fits
  numbers : ∀ value ∈ manifest.defaults, ∀ number ∈ value.numbers,
    number.ReadsBack

/-- The text of a manifest is read as the manifest without its null
defaults. -/
theorem Manifest.decode?_payload {manifest : Manifest}
    (readable : manifest.Readable) :
    decode? manifest.payload = some manifest.withoutNulls := by
  have readsBack := manifest.numbers_readBack readable.fits readable.numbers
  rw [decode?, payload, encode, Document.ofBytes?_compact readsBack]
  exact Document.manifest?_toJson readable.fits

/-- Bytes that tell a manifest: they are the text of its document, and the
manifest can be read from them but for defaults that are null. -/
structure Manifest.IsToldBy (manifest : Manifest) (data : List UInt8) :
    Prop where
  text : String.fromUTF8? ⟨data.toArray⟩ = some manifest.toJson.compact
  read : manifest.Readable →
    Manifest.decode? data = some manifest.withoutNulls

theorem Manifest.isToldBy_payload (manifest : Manifest) :
    manifest.IsToldBy manifest.payload where
  text := Utf8.fromUTF8?_toUTF8 manifest.encode
  read := decode?_payload

end PluginSurface
