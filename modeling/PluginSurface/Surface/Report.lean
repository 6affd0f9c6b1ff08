import PluginSurface.Surface.Manifest

/-!
Reports: a manifest laid out for people, as plain text, in colours or as
markdown.
-/

namespace PluginSurface

inductive ReportFormat where
  | plain
  | markdown
deriving DecidableEq, Inhabited

structure ReportOptions where
  format : ReportFormat
  /-- Whether plain text is coloured. -/
  color : Bool
  /-- Whether the manifest itself follows at the end. -/
  debug : Bool
deriving DecidableEq, Inhabited

namespace Report

/-! ## Colours -/

/-- A way to show text on a terminal, by its control sequence. -/
structure Style where
  sequence : String

def boldBlue : Style := ⟨"\x1b[1;34m"⟩
def blue : Style := ⟨"\x1b[34m"⟩
def cyan : Style := ⟨"\x1b[36m"⟩

def reset : String :=
  "\x1b[0m"

/-- Starts a style again after every reset within a text. -/
def resume (style : List Char) : List Char → List Char
  | '\x1b' :: '[' :: '0' :: 'm' :: rest =>
      '\x1b' :: '[' :: '0' :: 'm' :: style ++ resume style rest
  | char :: rest => char :: resume style rest
  | [] => []

def paint (style : Style) (text : String) : String :=
  style.sequence ++
    String.ofList (resume style.sequence.toList text.toList) ++ reset

/-! ## Layout -/

/-- The three ways to lay out a report. -/
inductive Look where
  | plain
  | colored
  | markdown

def lookOf (options : ReportOptions) : Look :=
  match options.format, options.color with
  | .markdown, _ => .markdown
  | .plain, true => .colored
  | .plain, false => .plain

def header (look : Look) (text : String) : String :=
  match look with
  | .plain => text ++ "\n"
  | .colored => paint boldBlue text ++ "\n"
  | .markdown => "### " ++ text ++ "\n"

def item (look : Look) (text : String) : String :=
  match look with
  | .plain => "  " ++ text ++ "\n"
  | .colored => "  " ++ paint cyan text ++ "\n"
  | .markdown => "  - " ++ text ++ "\n"

def repeated (char : Char) (count : Nat) : String :=
  String.ofList (List.replicate count char)

/-- The number of characters of the longest text. -/
def widest (texts : List String) : Nat :=
  texts.foldl
    (fun width text => if width < text.length then text.length else width) 0

/-- One row of a table whose columns have the given widths. -/
def row (look : Look) (keyWidth valueWidth : Nat) (key value : String) :
    String :=
  let keyPadding := repeated ' ' (keyWidth - key.length)
  let valuePadding := repeated ' ' (valueWidth - value.length)
  match look with
  | .plain => "  " ++ key ++ ":" ++ keyPadding ++ " " ++ value ++ "\n"
  | .colored =>
      "  " ++ paint cyan (key ++ ":") ++ keyPadding ++ " " ++
        paint blue value ++ "\n"
  | .markdown =>
      "| " ++ key ++ keyPadding ++ " | " ++ value ++ valuePadding ++ " |\n"

/-- A table of two columns. In markdown it has an empty head. -/
def table (look : Look) (rows : List (String × String)) : String :=
  let keyWidth := widest (rows.map Prod.fst)
  let valueWidth := widest (rows.map Prod.snd)
  let line (char : Char) : String :=
    "| " ++ repeated char keyWidth ++ " | " ++ repeated char valueWidth ++
      " |\n"
  let head :=
    match look with
    | .markdown => line ' ' ++ line '-'
    | _ => ""
  head ++
    String.join (rows.map fun entry =>
      row look keyWidth valueWidth entry.1 entry.2)

/-! ## Sections -/

/-- The identity of a build, row by row. -/
def identityRows (manifest : Manifest) : List (String × String) :=
  [("Plugin Name", manifest.plugin), ("Library", manifest.library),
    ("Build ID", manifest.buildId), ("Build Timestamp", manifest.buildTime)] ++
  match manifest.revision with
  | some revision =>
      [("Git Repo", revision.repository), ("Git Commit", revision.commit)]
  | none => []

def functionSection (look : Look) (manifest : Manifest)
    (records : RecordLookup) : String :=
  header look "Hypermode Functions:" ++
    String.join (manifest.functions.map fun signature =>
      item look (signature.text (records signature.name))) ++
    "\n"

/-- The types that listings show; without any there is no section. -/
def typeSection (look : Look) (manifest : Manifest) : String :=
  match manifest.visibleTypes with
  | [] => ""
  | types =>
      header look "Custom Data Types:" ++
        String.join (types.map fun definition => item look definition.text) ++
        "\n"

def debugSection (look : Look) (manifest : Manifest) : String :=
  header look "Metadata JSON:" ++ manifest.toJson.pretty ++ "\n\n"

end Report

open Report

def Manifest.report (manifest : Manifest) (records : RecordLookup)
    (options : ReportOptions) : String :=
  let look := lookOf options
  header look "Plugin Metadata:" ++ table look (identityRows manifest) ++
    "\n" ++ functionSection look manifest records ++
    typeSection look manifest ++
    if options.debug then debugSection look manifest else ""

end PluginSurface
