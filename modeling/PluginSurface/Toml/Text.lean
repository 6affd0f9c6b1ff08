/-!
Writing strings in TOML documents. A string is written in the first form of a
fixed order that shows it without escapes, and with escapes if there is none.
-/

namespace PluginSurface.Toml

/-- The longest run of a character. The first number is the length of the run
that has been read up to here. -/
def longestRun (mark : Char) (run : Nat) : List Char → Nat
  | [] => run
  | char :: rest =>
      if char = mark then longestRun mark (run + 1) rest
      else max run (longestRun mark 0 rest)

/-- Whether a character can only be written as an escape: it is a control
character other than the tabulator and the line feed. -/
def needsEscape (char : Char) : Bool :=
  char ≠ '\t' && char ≠ '\n' && (char.toNat < 0x20 || char.toNat == 0x7f)

/-- A form that strings are written in. -/
structure StringForm where
  delimiter : List Char
  hasEscapes : Bool
  hasLines : Bool

namespace StringForm

def basic : StringForm := ⟨['"'], true, false⟩
def basicLines : StringForm := ⟨['"', '"', '"'], true, true⟩
def literal : StringForm := ⟨['\x27'], false, false⟩
def literalLines : StringForm := ⟨['\x27', '\x27', '\x27'], false, true⟩

/-- The form that a string is written in. -/
def ofContent (content : List Char) : StringForm :=
  let doubleQuotes := longestRun '"' 0 content
  let singleQuotes := longestRun '\x27' 0 content
  let control := content.any needsEscape
  let backslash := content.contains '\\'
  let newline := content.contains '\n'
  if !control && !backslash && doubleQuotes == 0 && !newline then basic
  else if !control && singleQuotes == 0 && !newline then literal
  else if !control && !backslash && doubleQuotes ≤ 2 then basicLines
  else if !control && singleQuotes ≤ 2 then literalLines
  else if newline then basicLines
  else basic

end StringForm

def fourDigits (value : Nat) : List Char :=
  let digits := (Nat.toDigits 16 value).map Char.toUpper
  List.replicate (4 - digits.length) '0' ++ digits

/-- Writes content with escapes. Line feeds stand as they are if the string has
several lines, and so do up to two quotes in a row. The first number is the
length of the run of quotes that stands before the content. -/
def escapeContent (hasLines : Bool) (run : Nat) : List Char → List Char
  | [] => []
  | char :: rest =>
      if char = '"' then
        if hasLines && run < 2 then
          '"' :: escapeContent hasLines (run + 1) rest
        else '\\' :: '"' :: escapeContent hasLines 0 rest
      else
        let written :=
          if char = '\x08' then ['\\', 'b']
          else if char = '\t' then ['\\', 't']
          else if char = '\n' then if hasLines then ['\n'] else ['\\', 'n']
          else if char = '\x0c' then ['\\', 'f']
          else if char = '\r' then ['\\', 'r']
          else if char = '\\' then ['\\', '\\']
          else if needsEscape char then
            '\\' :: 'u' :: fourDigits char.toNat
          else [char]
        written ++ escapeContent hasLines 0 rest

/-- A string as it is written in a document. A string of several lines begins on
a line of its own. -/
def quoted (text : String) : String :=
  let content := text.toList
  let form := StringForm.ofContent content
  let start := if form.hasLines && content.contains '\n' then ['\n'] else []
  let body :=
    if form.hasEscapes then escapeContent form.hasLines 0 content else content
  String.ofList (form.delimiter ++ start ++ body ++ form.delimiter)

end PluginSurface.Toml
