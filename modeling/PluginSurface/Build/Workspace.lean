import PluginSurface.Build.Session

/-!
Builds that are called time and again. A workspace takes transformations and
questions in any order. It holds the programs of its last transformation, and
the manifest that it assembles of them when a question first needs it, so that
embedding and reporting agree. Every manifest that it assembles has an identity
of its own.
-/

namespace PluginSurface

/-- What can be asked of a build that has transformed sources. -/
inductive BuildQuery where
  | maskedSources
  | manifest
  | embed (module : List UInt8)
  | report
deriving Inhabited

inductive BuildCall where
  | transform (sources : List BuildSource)
  | ask (query : BuildQuery)
deriving Inhabited

/-- What a call returns. -/
inductive BuildAnswer where
  | transformed (programs : List Program)
  | maskedSources (sources : List (String × String))
  | manifest (manifest : Manifest)
  | embedded (module : List UInt8) (summary : EmbedSummary)
  | report (text : String)
deriving Inhabited

structure Workspace where
  settings : Settings
  revision : Option Revision
  /-- The identities of the manifests that are still to be assembled. -/
  identities : Nat → BuildIdentity
  context : MaskingContext
  /-- The sources as they were parsed. -/
  parsed : List Program
  /-- The sources with masks in place of defaults. -/
  programs : List Program
  /-- The manifest of the programs, once it has been asked for. -/
  assembled : Option Manifest
  isTransformed : Bool
deriving Inhabited

namespace Workspace

def start (settings : Settings) (revision : Option Revision)
    (identities : Nat → BuildIdentity) : Workspace :=
  ⟨settings, revision, identities, .empty, [], [], none, false⟩

/-! ## Transformation -/

/-- Discards what the last transformation has left. -/
def clear (workspace : Workspace) : Workspace :=
  { workspace with
    context := workspace.context.reset
    parsed := []
    programs := []
    assembled := none
    isTransformed := false }

/-- Parses and masks sources. A transformation that fails leaves what masking had
recorded, and nothing of an earlier one. -/
def transform (workspace : Workspace) (sources : List BuildSource) :
    Except BuildError (List Program) × Workspace :=
  let cleared := workspace.clear
  let (parsed, diagnostics) := Build.parseAll sources .empty
  if diagnostics.hasErrors then (.error (.source diagnostics), cleared)
  else
    let (result, context) := cleared.context.maskAnew parsed
    match result with
    | .ok programs =>
        (.ok programs, { cleared with
          context := context
          parsed := parsed
          programs := programs
          isTransformed := true })
    | .error error =>
        (.error (.masking error), { cleared with context := context })

/-! ## Questions -/

/-- The manifest of the programs, under the next identity. -/
def assemble (workspace : Workspace) : Manifest where
  buildId := (workspace.identities 0).id
  buildTime := (workspace.identities 0).time
  plugin := workspace.settings.identity
  library := libraryIdentity
  revision := workspace.revision
  functions := assembleSignatures workspace.context workspace.programs
  types := assembleTypes workspace.context workspace.programs

def ensureTransformed (workspace : Workspace) : Except BuildError Unit :=
  if workspace.isTransformed then .ok () else .error .notTransformed

/-- The manifest of the last transformation. It is assembled if it has not been
yet, and kept. -/
def ensureManifest (workspace : Workspace) :
    Except BuildError Manifest × Workspace :=
  match workspace.ensureTransformed with
  | .error error => (.error error, workspace)
  | .ok () =>
      match workspace.assembled with
      | some manifest => (.ok manifest, workspace)
      | none =>
          let manifest := workspace.assemble
          (.ok manifest, { workspace with
            assembled := some manifest
            identities := fun index => workspace.identities (index + 1) })

/-- The paths and texts of the masked programs that are no libraries. -/
def ownTexts (workspace : Workspace) : List (String × String) :=
  let own := workspace.programs.filter fun program =>
    program.kind != .library
  own.map fun program => (program.path, program.text)

def embed (workspace : Workspace) (manifest : Manifest)
    (module : List UInt8) : Except BuildError BuildAnswer :=
  match manifest.embed workspace.settings.sectionName module with
  | .ok (module, summary) => .ok (.embedded module summary)
  | .error error => .error (.embed error)

def report (workspace : Workspace) (manifest : Manifest) : BuildAnswer :=
  .report <|
    manifest.report workspace.context.records? workspace.settings.reportOptions

def ask (workspace : Workspace) :
    BuildQuery → Except BuildError BuildAnswer × Workspace
  | .maskedSources =>
      (workspace.ensureTransformed.map fun () =>
        .maskedSources workspace.ownTexts, workspace)
  | .manifest =>
      let (manifest, after) := workspace.ensureManifest
      (manifest.map .manifest, after)
  | .embed module =>
      let (manifest, after) := workspace.ensureManifest
      (manifest.bind fun manifest => workspace.embed manifest module, after)
  | .report =>
      let (manifest, after) := workspace.ensureManifest
      (manifest.map workspace.report, after)

/-! ## Calls -/

def call (workspace : Workspace) :
    BuildCall → Except BuildError BuildAnswer × Workspace
  | .transform sources =>
      let (result, after) := workspace.transform sources
      (result.map .transformed, after)
  | .ask query => workspace.ask query

/-- The workspace after some calls. -/
def after (workspace : Workspace) (calls : List BuildCall) : Workspace :=
  calls.foldl (fun workspace call => (workspace.call call).2) workspace

/-- What some calls return, one after the other. -/
def answers (workspace : Workspace) :
    List BuildCall → List (Except BuildError BuildAnswer)
  | [] => []
  | call :: rest =>
      let (answer, after) := workspace.call call
      answer :: after.answers rest

end Workspace

end PluginSurface
