import PluginSurface.Digest.Sha256
import PluginSurface.Surface.Manifest
import PluginSurface.Wasm.Validity

/-!
Manifests in modules. A manifest is kept in a custom section of its own; putting
it there leaves all other sections as they are.
-/

namespace PluginSurface

open Leb128 (Bytes)

/-- Why a manifest could not be put into a module or taken from it. -/
inductive EmbedError where
  | emptySectionName
  /-- The bytes are not those of a module. -/
  | malformed
  /-- The bytes are those of a component. -/
  | component
  /-- The module with the manifest in it is not valid. -/
  | invalid
  /-- What the section holds is no manifest. -/
  | noManifest
deriving DecidableEq, Inhabited

/-- The message of an error, as far as it does not hang on the bytes. -/
def EmbedError.message? : EmbedError → Option String
  | emptySectionName => some "invalid custom section name ''"
  | component =>
      some "invalid input module: components are not supported"
  | _ => none

/-- What was put into a module. -/
structure EmbedSummary where
  sectionName : String
  /-- The number of bytes of the manifest. -/
  payloadLength : Nat
  /-- The digest of the manifest. -/
  digest : String
  /-- Whether the module had the section before. -/
  isReplaced : Bool
deriving DecidableEq, Inhabited

namespace Wasm

/-- Whether a section is the custom section with a name. -/
def Section.isNamed (name : String) (sec : Section) : Bool :=
  (sec.custom?.map Custom.name) == some name

/-- Puts a custom section in the place of the first one with its name and drops
all later ones, or adds it at the end if there is none. -/
def attach (custom : Custom) (sections : List Section) : List Section :=
  let isOther (sec : Section) : Bool := !sec.isNamed custom.name
  match sections.dropWhile isOther with
  | [] => sections ++ [custom.toSection]
  | _ :: later =>
      sections.takeWhile isOther ++ custom.toSection :: later.filter isOther

/-- Whether bytes are those of a valid module of version one. -/
def isValidModule (bytes : Bytes) : Bool :=
  match read? bytes with
  | some (.module 1, sections) =>
      sections.isComplete && isValid sections.items
  | _ => false

end Wasm

namespace Manifest

def payload (manifest : Manifest) : Bytes :=
  manifest.encode.toUTF8.toList

/-- Puts a manifest into the section of a module with a name. -/
def embed (manifest : Manifest) (sectionName : String) (input : Bytes) :
    Except EmbedError (Bytes × EmbedSummary) := do
  if sectionName = "" then throw .emptySectionName
  match Wasm.read? input with
  | none => throw .malformed
  | some (.component _, _) => throw .component
  | some (.module _, sections) =>
      if !sections.isComplete then throw .malformed
      let payload := manifest.payload
      let output :=
        Wasm.encode (Wasm.attach ⟨sectionName, payload⟩ sections.items)
      if !Wasm.isValidModule output then throw .invalid
      return (output,
        { sectionName
          payloadLength := payload.length
          digest := Sha256.text payload
          isReplaced := sections.items.any (Wasm.Section.isNamed sectionName) })

/-- Takes the manifest from the first section of a module with a name, if there
is one. What follows that section does not matter. -/
def extract? (sectionName : String) (input : Bytes) :
    Except EmbedError (Option Manifest) :=
  match Wasm.read? input with
  | none => .error .malformed
  | some (_, sections) =>
      match sections.items.find? (Wasm.Section.isNamed sectionName) with
      | some sec =>
          match sec.custom?.bind fun custom => decode? custom.data with
          | some manifest => .ok (some manifest)
          | none => .error .noManifest
      | none => if sections.isComplete then .ok none else .error .malformed

end Manifest

end PluginSurface
