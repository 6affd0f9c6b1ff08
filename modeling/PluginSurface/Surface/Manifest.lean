import PluginSurface.Json.Document
import PluginSurface.Json.Text
import PluginSurface.Surface.Listing

/-!
Manifests: the identity of a build and what its plugin offers, written as a
document and read back from one.
-/

namespace PluginSurface

/-- The repository and the commit that a build was made from. -/
structure Revision where
  repository : String
  commit : String
deriving DecidableEq, Inhabited

structure Manifest where
  buildId : String
  buildTime : String
  plugin : String
  library : String
  revision : Option Revision
  functions : List FunctionSignature
  types : List TypeDefinition
deriving Inhabited, BEq

/-! ## Writing -/

def TypeRef.toJson (type : TypeRef) : Json :=
  .object [("name", .string type.name), ("path", .string type.path)]

def Parameter.toJson (parameter : Parameter) : Json :=
  .object <|
    [("name", .string parameter.name), ("type", parameter.type.toJson),
      ("optional", .bool parameter.isOptional)] ++
    match parameter.default? with
    | some value => [("default", value)]
    | none => []

def FunctionSignature.toJson (signature : FunctionSignature) : Json :=
  .object
    [("name", .string signature.name),
      ("parameters", .array (signature.parameters.map Parameter.toJson)),
      ("returnType", signature.returnType.toJson)]

def Field.toJson (field : Field) : Json :=
  .object
    [("offset", Json.ofNat field.offset), ("name", .string field.name),
      ("type", field.type.toJson)]

def TypeDefinition.toJson (definition : TypeDefinition) : Json :=
  .object <|
    [("id", Json.ofNat definition.id), ("size", Json.ofNat definition.size),
      ("path", .string definition.path), ("name", .string definition.name)] ++
    match definition.fields with
    | some fields => [("fields", .array (fields.map Field.toJson))]
    | none => []

namespace Manifest

/-- The two members that tell the revision, or none. -/
def revisionMembers (revision : Option Revision) : List (String × Json) :=
  match revision with
  | some revision =>
      [("gitRepo", .string revision.repository),
        ("gitCommit", .string revision.commit)]
  | none => []

/-- A manifest as a document, its members in a fixed order. -/
def toJson (manifest : Manifest) : Json :=
  .object <|
    [("buildId", .string manifest.buildId),
      ("buildTs", .string manifest.buildTime),
      ("plugin", .string manifest.plugin),
      ("library", .string manifest.library)] ++
    revisionMembers manifest.revision ++
    [("functions",
        .array (manifest.functions.map FunctionSignature.toJson)),
      ("types", .array (manifest.types.map TypeDefinition.toJson))]

def encode (manifest : Manifest) : String :=
  manifest.toJson.compact

def visibleTypes (manifest : Manifest) : List TypeDefinition :=
  manifest.types.filter fun definition => !definition.isHidden

end Manifest

/-! ## Reading -/

namespace Document

def typeRef? (document : Document) : Option TypeRef := do
  match ← document.parts? ["name", "path"] with
  | [some name, some path] => some ⟨← name.text?, ← path.text?⟩
  | _ => none

/-- How deep the containers in a default may be nested, as the default stands
within five containers. -/
def defaultDepth : Nat :=
  depthLimit - 5

def parameter? (document : Document) : Option Parameter := do
  match ← document.parts? ["name", "type", "optional", "default"] with
  | [some name, some type, optional, default] =>
      let optional ←
        match optional with
        | some optional => optional.bool?
        | none => some false
      let default ← nullable? (value? defaultDepth) default
      some ⟨← name.text?, ← type.typeRef?, optional, default⟩
  | _ => none

def signature? (document : Document) : Option FunctionSignature := do
  match ← document.parts? ["name", "parameters", "returnType"] with
  | [some name, some parameters, some returnType] =>
      let parameters ← (← parameters.items?).mapM parameter?
      some ⟨← name.text?, parameters, ← returnType.typeRef?⟩
  | _ => none

def field? (document : Document) : Option Field := do
  match ← document.parts? ["offset", "name", "type"] with
  | [some offset, some name, some type] =>
      some ⟨← offset.word?, ← name.text?, ← type.typeRef?⟩
  | _ => none

def fields? (document : Document) : Option (List Field) := do
  (← document.items?).mapM field?

def typeDefinition? (document : Document) : Option TypeDefinition := do
  match ← document.parts? ["id", "size", "path", "name", "fields"] with
  | [some id, some size, some path, some name, fields] =>
      let fields ← nullable? fields? fields
      some ⟨← id.word?, ← size.word?, ← path.text?, ← name.text?, fields⟩
  | _ => none

/-- The keys of a manifest that have to be there. -/
def manifestKeys : List String :=
  ["buildId", "buildTs", "plugin", "library", "functions", "types"]

/-- The text that stands under a key exactly once. -/
def onlyText? (members : List (Option String × Document)) (key : String) :
    Option String :=
  match members.filter fun entry => entry.1 == some key with
  | [(_, value)] => value.text?
  | _ => none

/-- The revision that the members of a manifest tell, if each of its two parts
stands there once as text. -/
def revision? (members : List (Option String × Document)) : Option Revision := do
  let repository ← onlyText? members "gitRepo"
  let commit ← onlyText? members "gitCommit"
  some ⟨repository, commit⟩

/-- Whether the members of a manifest under other than its own keys stand for
values. -/
def othersHaveValues (members : List (Option String × Document)) : Bool :=
  members.all fun entry =>
    match entry.1 with
    | some key =>
        manifestKeys.contains key ||
          (entry.2.value? (depthLimit - 1)).isSome
    | none => false

/-- A manifest. It is written as an object only. -/
def manifest? : Document → Option Manifest
  | .object members => do
      guard (othersHaveValues members)
      match ← knownMembers? manifestKeys members with
      | [some buildId, some buildTime, some plugin, some library,
          some functions, some types] =>
          let functions ← (← functions.items?).mapM signature?
          let types ← (← types.items?).mapM typeDefinition?
          some
            { buildId := ← buildId.text?
              buildTime := ← buildTime.text?
              plugin := ← plugin.text?
              library := ← library.text?
              revision := revision? members
              functions := functions
              types := types }
      | _ => none
  | _ => none

end Document

namespace Manifest

/-- Reads a manifest from the bytes of a text. -/
def decode? (bytes : List UInt8) : Option Manifest :=
  (Document.ofBytes? bytes).bind Document.manifest?

def ofText? (text : String) : Option Manifest :=
  decode? text.toUTF8.toList

end Manifest

end PluginSurface
