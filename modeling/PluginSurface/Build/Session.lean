import PluginSurface.Build.Assembly
import PluginSurface.Build.Settings
import PluginSurface.Grammar.Program
import PluginSurface.Syntax.Print
import PluginSurface.Wasm.Embedding

/-!
Builds: sources are parsed and masked, and what they offer to a host is put into
the module that a compiler made of them. A build keeps nothing of a
transformation when the next one begins.
-/

namespace PluginSurface

/-- A source of a build. -/
structure BuildSource where
  source : SourceText
  kind : SourceKind
deriving Inhabited

/-- What tells a build from all others. -/
structure BuildIdentity where
  id : String
  time : String
deriving DecidableEq, Inhabited

/-- The name and version of this library, as manifests tell them. -/
def libraryIdentity : String :=
  "hyperfn@0.1.0"

inductive BuildError where
  /-- Sources that cannot be parsed. -/
  | source (diagnostics : Diagnostics)
  | masking (error : MaskingError)
  | embed (error : EmbedError)
  | settings (error : SettingsError)
  /-- A later stage was asked for before sources were transformed. -/
  | notTransformed
deriving Inhabited

/-- The message of an error, as far as it does not hang on the bytes of a
module. -/
def BuildError.message? : BuildError → Option String
  | source diagnostics => some diagnostics.text
  | masking error => some error.message
  | embed error => error.message?
  | settings error => some error.message
  | notTransformed => some "no sources have been transformed yet"

/-- Sources as they were parsed, and with masks in place of defaults. -/
structure Transformed where
  parsed : List Program
  programs : List Program
deriving Inhabited

/-- A build and its last transformation. -/
structure Build where
  settings : Settings
  revision : Option Revision
  identity : BuildIdentity
  context : MaskingContext
  transformed : Option Transformed
deriving Inhabited

namespace Build

/-- A build of which nothing has been transformed. -/
def start (settings : Settings) (revision : Option Revision)
    (identity : BuildIdentity) : Build :=
  ⟨settings, revision, identity, .empty, none⟩

/-! ## Transformation -/

/-- The programs of all sources that can be parsed, and the errors of the
others. -/
def parseAll : List BuildSource → Diagnostics → List Program × Diagnostics
  | [], diagnostics => ([], diagnostics)
  | ⟨source, kind⟩ :: rest, diagnostics =>
      match source.parse kind with
      | .ok program =>
          let (programs, diagnostics) := parseAll rest diagnostics
          (program :: programs, diagnostics)
      | .error found => parseAll rest (diagnostics.extend found)

/-- Parses and masks sources. A transformation that fails leaves a build without
any, but for what masking had recorded. -/
def transform (build : Build) (sources : List BuildSource) :
    Except BuildError Transformed × Build :=
  let (parsed, diagnostics) := parseAll sources .empty
  if diagnostics.hasErrors then
    (.error (.source diagnostics),
      { build with context := .empty, transformed := none })
  else
    let (result, context) := maskSources parsed
    match result with
    | .ok programs =>
        let transformed : Transformed := ⟨parsed, programs⟩
        (.ok transformed,
          { build with context, transformed := some transformed })
    | .error error =>
        (.error (.masking error), { build with context, transformed := none })

/-! ## Results -/

def ensureTransformed (build : Build) : Except BuildError Transformed :=
  match build.transformed with
  | some transformed => .ok transformed
  | none => .error .notTransformed

/-- The paths and texts of the masked programs that are no libraries, for the
compiler. -/
def maskedSources (build : Build) :
    Except BuildError (List (String × String)) := do
  let transformed ← build.ensureTransformed
  let own := transformed.programs.filter fun program =>
    program.kind != .library
  return own.map fun program => (program.path, program.text)

/-- What the transformed sources offer to a host. -/
def manifest (build : Build) : Except BuildError Manifest := do
  let transformed ← build.ensureTransformed
  return {
    buildId := build.identity.id
    buildTime := build.identity.time
    plugin := build.settings.identity
    library := libraryIdentity
    revision := build.revision
    functions := assembleSignatures build.context transformed.programs
    types := assembleTypes build.context transformed.programs }

def embed (build : Build) (module : List UInt8) :
    Except BuildError (List UInt8 × EmbedSummary) := do
  let manifest ← build.manifest
  (manifest.embed build.settings.sectionName module).mapError .embed

def report (build : Build) : Except BuildError String := do
  let manifest ← build.manifest
  return manifest.report build.context.records? build.settings.reportOptions

end Build

/-- All that a build makes of its sources and a module. -/
structure BuildOutput where
  module : List UInt8
  manifest : Manifest
  summary : EmbedSummary
  /-- The report, if the settings ask for one. -/
  report : Option String
deriving Inhabited

def Build.compile (build : Build) (sources : List BuildSource)
    (module : List UInt8) : Except BuildError BuildOutput := do
  build.settings.validate.mapError .settings
  let (result, build) := build.transform sources
  let _ ← result
  let (module, summary) ← build.embed module
  let report ←
    if build.settings.report.isEnabled then some <$> build.report
    else pure none
  return ⟨module, ← build.manifest, summary, report⟩

end PluginSurface
