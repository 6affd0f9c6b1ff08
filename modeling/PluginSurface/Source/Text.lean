import PluginSurface.Source.Parts

/-!
Named source texts and their lines.
-/

namespace PluginSurface

/-- A named text. -/
structure SourceText where
  name : String
  text : String
deriving Inhabited

namespace SourceText

/-- A line without the carriage returns at its end. -/
def trimReturns (line : List Char) : List Char :=
  (line.reverse.dropWhile (· = '\r')).reverse

/-- The lines without their terminators. There is one more line than there are
line feeds. -/
def lines (source : SourceText) : List String :=
  (splitAtMark '\n' source.text.toList).map fun line =>
    String.ofList (trimReturns line)

def lineCount (source : SourceText) : Nat :=
  source.lines.length

/-- The line with a number, the first line being number one. -/
def line? (source : SourceText) (number : Nat) : Option String :=
  match number with
  | 0 => none
  | index + 1 => source.lines[index]?

/-- The line with a number, or the empty text if there is none. -/
def lineText (source : SourceText) (number : Nat) : String :=
  (source.line? number).getD ""

end SourceText

end PluginSurface
