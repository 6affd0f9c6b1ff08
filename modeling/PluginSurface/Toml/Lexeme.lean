import PluginSurface.Number.Binary64
import PluginSurface.Toml.Value

/-!
The smallest parts of TOML documents: blanks and comments, strings, keys, numbers
and moments.
-/

namespace PluginSurface.Toml

abbrev Input := List Char

/-! ## Blanks and comments -/

def isBlank (char : Char) : Bool :=
  char == ' ' || char == '\t'

def skipBlanks (input : Input) : Input :=
  input.dropWhile isBlank

/-- Characters that may stand in comments and literal strings: all but control
characters, of which only the tabulator may. -/
def isPlain (char : Char) : Bool :=
  char == '\t' || (0x20 ≤ char.toNat && char.toNat ≠ 0x7f)

/-- What follows a line feed, with or without a carriage return before it. -/
def newline? : Input → Option Input
  | '\n' :: rest => some rest
  | '\r' :: '\n' :: rest => some rest
  | _ => none

/-- What follows the end of a line on which nothing but blanks and a comment is
left. -/
def endLine? (input : Input) : Option Input :=
  let rest :=
    match skipBlanks input with
    | '#' :: rest => rest.dropWhile isPlain
    | rest => rest
  if rest.isEmpty then some [] else newline? rest

/-- Skips blanks, comments and ends of lines. The flag tells that a comment has
begun. -/
def skipFiller (inComment : Bool) : Input → Option Input
  | [] => some []
  | '\n' :: rest => skipFiller false rest
  | '\r' :: '\n' :: rest => skipFiller false rest
  | '#' :: rest => skipFiller true rest
  | char :: rest =>
      if inComment then
        if isPlain char then skipFiller true rest else none
      else if isBlank char then skipFiller false rest
      else if char = '\r' then none
      else some (char :: rest)

/-! ## Strings -/

def hexValue? (digits : List Char) : Option Nat :=
  digits.foldlM (fun value digit => do
    let code := digit.toNat
    let place ←
      if digit.isDigit then some (code - 48)
      else if 'a' ≤ digit ∧ digit ≤ 'f' then some (code - 87)
      else if 'A' ≤ digit ∧ digit ≤ 'F' then some (code - 55)
      else none
    some (value * 16 + place)) 0

/-- The character with a number that is written in hexadecimal digits. -/
def scalar? (digits : List Char) : Option Char := do
  let value ← hexValue? digits
  if value < 0xd800 || (0xdfff < value && value < 0x110000) then
    some (Char.ofNat value)
  else none

/-- The character that a letter behind a backslash stands for. -/
def escape? : Char → Option Char
  | 'b' => some '\x08'
  | 't' => some '\t'
  | 'n' => some '\n'
  | 'f' => some '\x0c'
  | 'r' => some '\r'
  | '"' => some '"'
  | '\\' => some '\\'
  | _ => none

/-- Adds a character to a string that has been read behind it. -/
def prepend (char : Char) (read : Option (List Char × Input)) :
    Option (List Char × Input) :=
  read.map fun (content, rest) => (char :: content, rest)

/-- The content of a string in double quotes behind the first of them. -/
def basic? : Input → Option (List Char × Input)
  | [] => none
  | '"' :: rest => some ([], rest)
  | '\\' :: 'u' :: a :: b :: c :: d :: rest => do
      prepend (← scalar? [a, b, c, d]) (basic? rest)
  | '\\' :: 'U' :: a :: b :: c :: d :: e :: f :: g :: h :: rest => do
      prepend (← scalar? [a, b, c, d, e, f, g, h]) (basic? rest)
  | '\\' :: mark :: rest => do
      prepend (← escape? mark) (basic? rest)
  | char :: rest =>
      if isPlain char && char ≠ '\\' then prepend char (basic? rest) else none

/-- A piece of a string of several lines in double quotes. -/
inductive Piece where
  | plain (char : Char)
  | escaped (char : Char)
  /-- A backslash that stands before blanks and the end of its line. -/
  | continuation

/-- Adds a piece to those that have been read behind it. -/
def prependPiece (piece : Piece) (read : Option (List Piece × Input)) :
    Option (List Piece × Input) :=
  read.map fun (pieces, rest) => (piece :: pieces, rest)

/-- The pieces of a string of several lines in double quotes, behind the quotes
that open it. Up to two quotes may stand before the three that close it. -/
def basicPieces? : Input → Option (List Piece × Input)
  | [] => none
  | '"' :: '"' :: '"' :: '"' :: '"' :: rest =>
      some ([.plain '"', .plain '"'], rest)
  | '"' :: '"' :: '"' :: '"' :: rest => some ([.plain '"'], rest)
  | '"' :: '"' :: '"' :: rest => some ([], rest)
  | '\r' :: '\n' :: rest => prependPiece (.plain '\n') (basicPieces? rest)
  | '\\' :: 'u' :: a :: b :: c :: d :: rest => do
      prependPiece (.escaped (← scalar? [a, b, c, d])) (basicPieces? rest)
  | '\\' :: 'U' :: a :: b :: c :: d :: e :: f :: g :: h :: rest => do
      prependPiece (.escaped (← scalar? [a, b, c, d, e, f, g, h]))
        (basicPieces? rest)
  | '\\' :: '\r' :: '\n' :: rest =>
      prependPiece .continuation
        (prependPiece (.plain '\n') (basicPieces? rest))
  | '\\' :: mark :: rest => do
      if isBlank mark || mark == '\n' then
        prependPiece .continuation
          (prependPiece (.plain mark) (basicPieces? rest))
      else prependPiece (.escaped (← escape? mark)) (basicPieces? rest)
  | char :: rest =>
      if char == '\n' || (isPlain char && char ≠ '\\') then
        prependPiece (.plain char) (basicPieces? rest)
      else none

/-- Where a text stands with respect to a continuation, which takes away the end
of its line and all blanks and ends of lines that follow. -/
inductive Continuation where
  | settled
  /-- Before the end of the line. -/
  | pending
  /-- Behind the end of the line. -/
  | trimming
deriving DecidableEq

def joinPieces? : Continuation → List Piece → Option (List Char)
  | .pending, [] => none
  | _, [] => some []
  | .pending, .plain char :: rest =>
      if char = '\n' then joinPieces? .trimming rest
      else if isBlank char then joinPieces? .pending rest
      else none
  | .pending, _ :: _ => none
  | _, .continuation :: rest => joinPieces? .pending rest
  | state, .plain char :: rest =>
      if state = .trimming && (char == '\n' || isBlank char) then
        joinPieces? .trimming rest
      else (joinPieces? .settled rest).map (char :: ·)
  | _, .escaped char :: rest =>
      (joinPieces? .settled rest).map (char :: ·)

/-- The content of a string of several lines in double quotes, behind the quotes
that open it. -/
def basicLines? (input : Input) : Option (List Char × Input) := do
  let (pieces, rest) ← basicPieces? input
  some (← joinPieces? .settled pieces, rest)

/-- The content of a string in single quotes behind the first of them. -/
def literal? : Input → Option (List Char × Input)
  | [] => none
  | char :: rest =>
      if char = '\x27' then some ([], rest)
      else if isPlain char then prepend char (literal? rest)
      else none

/-- The content of a string of several lines in single quotes, behind the quotes
that open it. -/
def literalLines? : Input → Option (List Char × Input)
  | [] => none
  | '\n' :: rest => prepend '\n' (literalLines? rest)
  | '\r' :: '\n' :: rest => prepend '\n' (literalLines? rest)
  | '\x27' :: '\x27' :: '\x27' :: '\x27' :: '\x27' :: rest =>
      some (['\x27', '\x27'], rest)
  | '\x27' :: '\x27' :: '\x27' :: '\x27' :: rest => some (['\x27'], rest)
  | '\x27' :: '\x27' :: '\x27' :: rest => some ([], rest)
  | char :: rest =>
      if isPlain char then prepend char (literalLines? rest) else none

/-- A string of several lines does not begin with the end of the line that its
quotes stand on. -/
def dropNewline (input : Input) : Input :=
  (newline? input).getD input

def string? (input : Input) : Option (String × Input) := do
  let (content, rest) ←
    match input with
    | '"' :: '"' :: '"' :: rest => basicLines? (dropNewline rest)
    | '"' :: rest => basic? rest
    | '\x27' :: '\x27' :: '\x27' :: rest => literalLines? (dropNewline rest)
    | '\x27' :: rest => literal? rest
    | _ => none
  some (String.ofList content, rest)

/-! ## Keys -/

def isBare (char : Char) : Bool :=
  char.isAlphanum || char == '_' || char == '-'

def segment? (input : Input) : Option (String × Input) :=
  match input with
  | '"' :: rest => do
      let (content, rest) ← basic? rest
      some (String.ofList content, rest)
  | '\x27' :: rest => do
      let (content, rest) ← literal? rest
      some (String.ofList content, rest)
  | input =>
      let bare := input.takeWhile isBare
      if bare.isEmpty then none
      else some (String.ofList bare, input.dropWhile isBare)

/-- Reads a key of at most so many segments, with the blanks around them. -/
def key? : Nat → Input → Option (List String × Input)
  | 0, _ => none
  | limit + 1, input => do
      let (segment, rest) ← segment? (skipBlanks input)
      match skipBlanks rest with
      | '.' :: rest => do
          let (segments, rest) ← key? limit rest
          some (segment :: segments, rest)
      | rest => some ([segment], rest)

/-! ## Numbers -/

/-- Digits, which may have single underscores between them. -/
def digits? (isDigit : Char → Bool) : List Char → Option (List Char)
  | [] => none
  | [digit] => if isDigit digit then some [digit] else none
  | digit :: '_' :: rest =>
      if isDigit digit then (digits? isDigit rest).map (digit :: ·) else none
  | digit :: rest =>
      if isDigit digit then (digits? isDigit rest).map (digit :: ·) else none

def digitsValue (base : Nat) (digits : List Char) : Nat :=
  digits.foldl (fun value digit =>
    value * base + ((hexValue? [digit]).getD 0)) 0

/-- Decimal digits without a needless zero at the front. -/
def whole? (text : List Char) : Option (List Char) := do
  let digits ← digits? Char.isDigit text
  if digits.head? = some '0' ∧ text.length ≠ 1 then none else some digits

/-- A sign that may be missing, as whether it is a minus, and what follows. -/
def signed : List Char → Bool × List Char
  | '+' :: rest => (false, rest)
  | '-' :: rest => (true, rest)
  | rest => (false, rest)

/-- Keeps numbers of 64 bits with a sign. -/
def within64 (value : Int) : Option Int :=
  if -9223372036854775808 ≤ value ∧ value ≤ 9223372036854775807 then
    some value
  else none

def integer? : List Char → Option Int
  | '0' :: 'x' :: rest => do
      let digits ← digits? (fun char => (hexValue? [char]).isSome) rest
      within64 (digitsValue 16 digits)
  | '0' :: 'o' :: rest => do
      let digits ← digits? (fun char => '0' ≤ char && char ≤ '7') rest
      within64 (digitsValue 8 digits)
  | '0' :: 'b' :: rest => do
      let digits ← digits? (fun char => char == '0' || char == '1') rest
      within64 (digitsValue 2 digits)
  | text => do
      let (negative, text) := signed text
      let value : Int := digitsValue 10 (← whole? text)
      within64 (if negative then -value else value)

/-- An exponent with its mark, or none at all. -/
def power? : List Char → Option Int
  | [] => some 0
  | _ :: text => do
      let (negative, text) := signed text
      let value : Int := digitsValue 10 (← digits? Char.isDigit text)
      some (if negative then -value else value)

/-- A number with a point or an exponent, or one of the two words that stand for
what is beyond numbers. A number must not exceed the greatest double. -/
def float? (text : List Char) : Option Float := do
  let (negative, text) := signed text
  let sign (value : Float) : Float := if negative then -value else value
  if text = "inf".toList then some (sign (Binary64.infinity false))
  else if text = "nan".toList then some Binary64.notANumber
  else
    let isMark (char : Char) : Bool := char == 'e' || char == 'E'
    let mantissa := text.takeWhile fun char => !isMark char
    let power := text.dropWhile fun char => !isMark char
    let whole := mantissa.takeWhile (· ≠ '.')
    let fraction ←
      match mantissa.dropWhile (· ≠ '.') with
      | [] => if power.isEmpty then none else some []
      | _ :: digits => digits? Char.isDigit digits
    let digits := (← whole? whole) ++ fraction
    let value := sign <|
      Binary64.ofDecimal (digitsValue 10 digits)
        ((← power? power) - fraction.length)
    if value.isInf && !negative then none else some value

/-! ## Moments -/

/-- The value of two decimal digits, if it is within bounds. -/
def pair? (least greatest : Nat) (a b : Char) : Option Nat := do
  guard (a.isDigit && b.isDigit)
  let value := digitsValue 10 [a, b]
  guard (least ≤ value && value ≤ greatest)
  some value

def daysOfMonth (year month : Nat) : Nat :=
  if month = 2 then
    if year % 4 = 0 ∧ (year % 100 ≠ 0 ∨ year % 400 = 0) then 29 else 28
  else if month = 4 ∨ month = 6 ∨ month = 9 ∨ month = 11 then 30
  else 31

def date? : List Char → Option (List Char)
  | y₁ :: y₂ :: y₃ :: y₄ :: '-' :: m₁ :: m₂ :: '-' :: d₁ :: d₂ :: rest => do
      guard ([y₁, y₂, y₃, y₄].all Char.isDigit)
      let month ← pair? 1 12 m₁ m₂
      let _ ← pair? 1 (daysOfMonth (digitsValue 10 [y₁, y₂, y₃, y₄]) month)
        d₁ d₂
      some rest
  | _ => none

def clock? : List Char → Option (List Char)
  | h₁ :: h₂ :: ':' :: m₁ :: m₂ :: ':' :: s₁ :: s₂ :: rest => do
      let _ ← pair? 0 23 h₁ h₂
      let _ ← pair? 0 59 m₁ m₂
      let _ ← pair? 0 60 s₁ s₂
      match rest with
      | '.' :: rest =>
          if (rest.takeWhile Char.isDigit).isEmpty then none
          else some (rest.dropWhile Char.isDigit)
      | rest => some rest
  | _ => none

/-- Whether a text is a distance from universal time, or nothing. -/
def isOffset : List Char → Bool
  | [] => true
  | [mark] => mark == 'Z' || mark == 'z'
  | [sign, h₁, h₂, ':', m₁, m₂] =>
      (sign == '+' || sign == '-') && (pair? 0 23 h₁ h₂).isSome &&
        (pair? 0 59 m₁ m₂).isSome
  | _ => false

/-- Whether a text is a time of day at a place. -/
def isClockAtPlace (text : List Char) : Bool :=
  ((clock? text).map isOffset).getD false

/-- Whether a text is a date, a time of day or both. -/
def isMoment (text : List Char) : Bool :=
  clock? text == some [] ||
    match date? text with
    | some [] => true
    | some (mark :: rest) =>
        (mark == 'T' || mark == 't') && isClockAtPlace rest
    | none => false

/-! ## Words -/

def endsWord (char : Char) : Bool :=
  isBlank char || char == '\n' || char == '\r' || char == ',' ||
    char == ']' || char == '}' || char == '#'

/-- Reads a value that is no string and holds no other values. A date may be
divided from a time of day by a blank. -/
def word? (input : Input) : Option (Toml × Input) :=
  let word := input.takeWhile fun char => !endsWord char
  let rest := input.dropWhile fun char => !endsWord char
  let moment (text : List Char) (rest : Input) : Option (Toml × Input) :=
    some (.moment (String.ofList text), rest)
  if word = "true".toList then some (.bool true, rest)
  else if word = "false".toList then some (.bool false, rest)
  else if date? word = some [] then
    match rest with
    | ' ' :: behind =>
        let clock := behind.takeWhile fun char => !endsWord char
        if clock.isEmpty then moment word rest
        else if isClockAtPlace clock then
          moment (word ++ ' ' :: clock)
            (behind.dropWhile fun char => !endsWord char)
        else none
    | _ => moment word rest
  else if isMoment word then moment word rest
  else
    match float? word, integer? word with
    | some value, _ => some (.float value, rest)
    | none, some value => some (.integer value, rest)
    | none, none => none

end PluginSurface.Toml
