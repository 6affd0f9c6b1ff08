import PluginSurface.Surface.Report
import PluginSurface.Toml.Document
import PluginSurface.Toml.Text

/-!
Settings of a build: read from a TOML or a JSON document, overlaid with the
environment, and written as TOML.
-/

namespace PluginSurface

/-- The name and the version of a plugin, as far as they are known. -/
structure PluginSettings where
  name : Option String
  version : Option String
deriving DecidableEq, Inhabited

structure ReportSettings where
  isEnabled : Bool
  format : ReportFormat
  /-- Whether plain reports are coloured. -/
  color : Bool
deriving DecidableEq, Inhabited

structure Settings where
  plugin : PluginSettings
  /-- The name of the module section that holds the manifest. -/
  sectionName : String
  report : ReportSettings
  /-- Whether reports end with the manifest itself. -/
  debug : Bool
deriving DecidableEq, Inhabited

/-- Settings that no build can use. -/
inductive SettingsError where
  | emptySection
deriving DecidableEq

def SettingsError.message : SettingsError → String
  | emptySection => "invalid config: metadata.section must not be empty"

/-! ## Defaults -/

def PluginSettings.standard : PluginSettings :=
  ⟨none, none⟩

/-- The section that manifests are kept in unless the settings name another
one. -/
def standardSection : String :=
  "hypermode_meta"

def ReportSettings.standard : ReportSettings :=
  ⟨true, .plain, false⟩

namespace ReportFormat

def text : ReportFormat → String
  | plain => "plain"
  | markdown => "markdown"

def ofText? (name : String) : Option ReportFormat :=
  [plain, markdown].find? fun format => format.text == name

end ReportFormat

namespace Settings

def standard : Settings :=
  ⟨.standard, standardSection, .standard, false⟩

/-! ## Use -/

/-- Settings that a build can use have a name for the section. -/
def validate (settings : Settings) : Except SettingsError Unit :=
  if settings.sectionName = "" then .error .emptySection else .ok ()

/-- Overlays settings with an environment. A variable that is empty counts as
missing. -/
def overlay (settings : Settings) (environment : String → Option String) :
    Settings :=
  let filled (name : String) : Option String :=
    (environment name).filter (· ≠ "")
  { settings with
    plugin :=
      { name := (filled "npm_package_name").or settings.plugin.name
        version := (filled "npm_package_version").or settings.plugin.version }
    debug := settings.debug || (filled "HYPERMODE_DEBUG").isSome }

/-- The name and the version of the plugin in one text. -/
def identity (settings : Settings) : String :=
  settings.plugin.name.getD "unknown" ++ "@" ++
    settings.plugin.version.getD "unknown"

def reportOptions (settings : Settings) : ReportOptions :=
  ⟨settings.report.format, settings.report.color, settings.debug⟩

/-! ## JSON -/

/-- Settings as a document. A name or version that is not known is left out. -/
def toJson (settings : Settings) : Json :=
  let known (key : String) (value : Option String) : List (String × Json) :=
    value.toList.map fun value => (key, .string value)
  .object
    [("plugin", .object <|
        known "name" settings.plugin.name ++
          known "version" settings.plugin.version),
      ("metadata", .object [("section", .string settings.sectionName)]),
      ("report", .object
        [("enabled", .bool settings.report.isEnabled),
          ("format", .string settings.report.format.text),
          ("color", .bool settings.report.color)]),
      ("debug", .bool settings.debug)]

end Settings

namespace Document

/-- A part that has a value of its own if it is left out. -/
def orElse? {Part : Type} (standard : Part) (read : Document → Option Part) :
    Option Document → Option Part
  | none => some standard
  | some document => read document

def pluginSettings? (document : Document) : Option PluginSettings := do
  match ← document.parts? ["name", "version"] with
  | [name, version] => some ⟨← nullable? text? name, ← nullable? text? version⟩
  | _ => none

def section? (document : Document) : Option String := do
  match ← document.parts? ["section"] with
  | [name] => orElse? standardSection text? name
  | _ => none

/-- A report format is written as its name, or as the only key of an object
whose member is null. -/
def reportFormat? : Document → Option ReportFormat
  | .string name => name.bind ReportFormat.ofText?
  | .object [(name, .null)] => name.bind ReportFormat.ofText?
  | _ => none

def reportSettings? (document : Document) : Option ReportSettings := do
  match ← document.parts? ["enabled", "format", "color"] with
  | [isEnabled, format, color] =>
      some
        ⟨← orElse? true bool? isEnabled, ← orElse? .plain reportFormat? format,
          ← orElse? false bool? color⟩
  | _ => none

def settings? (document : Document) : Option Settings := do
  match ← document.parts? ["plugin", "metadata", "report", "debug"] with
  | [plugin, metadata, report, debug] =>
      some
        ⟨← orElse? .standard pluginSettings? plugin,
          ← orElse? standardSection section? metadata,
          ← orElse? .standard reportSettings? report,
          ← orElse? false bool? debug⟩
  | _ => none

end Document

/-! ## TOML -/

namespace Toml

/-- The parts of a record under their keys. A record is written as a table, or as
an array of its parts from the first one on, where items beyond the last part do
not matter. A moment counts as a record that has none of the parts. -/
def parts? (keys : List String) : Toml → Option (List (Option Toml))
  | .table _ entries => some (keys.map (Entries.find? entries))
  | .array items => some (keys.mapIdx fun index _ => items[index]?)
  | .tables newest earlier =>
      let items := (earlier.reverse ++ [newest]).map (table .header)
      some (keys.mapIdx fun index _ => items[index]?)
  | .moment _ => some (keys.map fun _ => none)
  | _ => none

def text? : Toml → Option String
  | .string text => some text
  | _ => none

def bool? : Toml → Option Bool
  | .bool value => some value
  | _ => none

/-- A part that has a value of its own if it is left out. -/
def orElse? {Part : Type} (standard : Part) (read : Toml → Option Part) :
    Option Toml → Option Part
  | none => some standard
  | some value => read value

def isEmptyContainer : Toml → Bool
  | .table _ [] => true
  | .array [] => true
  | _ => false

def pluginSettings? (value : Toml) : Option PluginSettings := do
  match ← value.parts? ["name", "version"] with
  | [name, version] =>
      some
        ⟨← orElse? none (fun name => name.text?.map some) name,
          ← orElse? none (fun version => version.text?.map some) version⟩
  | _ => none

def section? (value : Toml) : Option String := do
  match ← value.parts? ["section"] with
  | [name] => orElse? standardSection text? name
  | _ => none

/-- A report format is written as its name, or as the only key of a table that
holds an empty table or array. -/
def reportFormat? : Toml → Option ReportFormat
  | .string name => ReportFormat.ofText? name
  | .table _ [(name, value)] => do
      guard value.isEmptyContainer
      ReportFormat.ofText? name
  | _ => none

def reportSettings? (value : Toml) : Option ReportSettings := do
  match ← value.parts? ["enabled", "format", "color"] with
  | [isEnabled, format, color] =>
      some
        ⟨← orElse? true bool? isEnabled, ← orElse? .plain reportFormat? format,
          ← orElse? false bool? color⟩
  | _ => none

def settings? (value : Toml) : Option Settings := do
  match ← value.parts? ["plugin", "metadata", "report", "debug"] with
  | [plugin, metadata, report, debug] =>
      some
        ⟨← orElse? .standard pluginSettings? plugin,
          ← orElse? standardSection section? metadata,
          ← orElse? .standard reportSettings? report,
          ← orElse? false bool? debug⟩
  | _ => none

end Toml

namespace Settings

/-- Reads settings from the text of a TOML document. -/
def ofToml? (text : String) : Option Settings := do
  let entries ← Toml.ofText? text
  (Toml.table .header entries).settings?

def tomlBool (value : Bool) : String :=
  if value then "true" else "false"

/-- A table of a TOML document with a blank line before it. -/
def tomlTable (name : String) (entries : List (String × String)) : String :=
  "\n[" ++ name ++ "]\n" ++
    String.join (entries.map fun (key, value) => key ++ " = " ++ value ++ "\n")

/-- Settings as the text of a TOML document. -/
def toToml (settings : Settings) : String :=
  let known (key : String) (value : Option String) : List (String × String) :=
    value.toList.map fun value => (key, Toml.quoted value)
  "debug = " ++ tomlBool settings.debug ++ "\n" ++
    tomlTable "plugin"
      (known "name" settings.plugin.name ++
        known "version" settings.plugin.version) ++
    tomlTable "metadata" [("section", Toml.quoted settings.sectionName)] ++
    tomlTable "report"
      [("enabled", tomlBool settings.report.isEnabled),
        ("format", Toml.quoted settings.report.format.text),
        ("color", tomlBool settings.report.color)]

end Settings

end PluginSurface
