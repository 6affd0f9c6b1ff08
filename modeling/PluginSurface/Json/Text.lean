import PluginSurface.Json.Value
import PluginSurface.Number.Layout

/-!
Documents as text, in one line or laid out over several.
-/

namespace PluginSurface.Json

def hexDigit (value : Nat) : Char :=
  Nat.digitChar (value % 16)

/-- A character of a string. Quotes, backslashes and control characters are
escaped, and all others stand for themselves. -/
def escapeChar (char : Char) : List Char :=
  match char with
  | '"' => ['\\', '"']
  | '\\' => ['\\', '\\']
  | '\x08' => ['\\', 'b']
  | '\x0c' => ['\\', 'f']
  | '\n' => ['\\', 'n']
  | '\r' => ['\\', 'r']
  | '\t' => ['\\', 't']
  | _ =>
      if char.toNat < 32 then
        ['\\', 'u', '0', '0', hexDigit (char.toNat / 16), hexDigit char.toNat]
      else [char]

def quote (text : String) : String :=
  String.ofList ('"' :: text.toList.flatMap escapeChar ++ ['"'])

def numberText : JsonNumber → String
  | .whole value => toString value
  | .real value => NumberLayout.json.render value

mutual

def compact : Json → String
  | .null => "null"
  | .bool true => "true"
  | .bool false => "false"
  | .number value => numberText value
  | .string value => quote value
  | .array items => "[" ++ String.intercalate "," (compactItems items) ++ "]"
  | .object members =>
      "\x7b" ++ String.intercalate "," (compactMembers members) ++ "\x7d"

def compactItems : List Json → List String
  | [] => []
  | item :: rest => item.compact :: compactItems rest

def compactMembers : List (String × Json) → List String
  | [] => []
  | (key, value) :: rest =>
      (quote key ++ ":" ++ value.compact) :: compactMembers rest

end

def indentation (level : Nat) : String :=
  String.ofList (List.replicate (2 * level) ' ')

/-- The lines of a container: its parts one level deeper, divided by commas.
A container without parts stays on one line. -/
def layOut (opening closing : String) (level : Nat) (parts : List String) :
    String :=
  if parts.isEmpty then opening ++ closing
  else
    opening ++ "\n" ++
      String.intercalate ",\n"
        (parts.map fun part => indentation (level + 1) ++ part) ++
      "\n" ++ indentation level ++ closing

mutual

/-- A document over several lines, with a level of nesting it stands at. -/
def prettyAt (level : Nat) : Json → String
  | .array items => layOut "[" "]" level (prettyItems (level + 1) items)
  | .object members =>
      layOut "\x7b" "\x7d" level (prettyMembers (level + 1) members)
  | .null => "null"
  | .bool true => "true"
  | .bool false => "false"
  | .number value => numberText value
  | .string value => quote value

def prettyItems (level : Nat) : List Json → List String
  | [] => []
  | item :: rest => item.prettyAt level :: prettyItems level rest

def prettyMembers (level : Nat) : List (String × Json) → List String
  | [] => []
  | (key, value) :: rest =>
      (quote key ++ ": " ++ value.prettyAt level) :: prettyMembers level rest

end

/-- A document over several lines, two blanks a level. -/
def pretty (value : Json) : String :=
  value.prettyAt 0

end PluginSurface.Json
