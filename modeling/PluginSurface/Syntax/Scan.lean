import PluginSurface.Syntax.Fault
import PluginSurface.Number.Binary64

/-!
From text to tokens. A text is divided into blanks, comments and lexemes. Each
lexeme is described by how many characters it takes, so the text after it is
what remains after dropping them, and its span runs from its first character to
its last.
-/

namespace PluginSurface

namespace Position

def advance (position : Position) (chars : List Char) : Position :=
  chars.foldl after position

/-- The position of the last character before a position on its line. -/
def lastBefore (position : Position) : Position :=
  ⟨position.line, if position.column ≤ 1 then 1 else position.column - 1⟩

end Position

namespace Scan

/-- The span from the first character of a lexeme to the last one before a
position. -/
def spanTo (start stop : Position) : Span :=
  ⟨start, stop.lastBefore⟩

/-! ## Blanks and comments -/

/-- What the blanks and comments at the front of a text leave. -/
structure Trivia where
  position : Position
  rest : List Char
  /-- Where a comment that is not closed stands. -/
  unclosed : Option Span

def isBlank (char : Char) : Bool :=
  char = ' ' || char = '\t' || char = '\r' || char = '\n'

/-- Where in blanks and comments a character stands. -/
inductive TriviaMode where
  | blank
  | lineComment
  | blockComment (start : Position)

/-- Skips blanks, comments to the end of a line and comments between `/*` and
`*/`. -/
def skipTrivia : TriviaMode → Position → List Char → Trivia
  | .blank, position, '/' :: '/' :: rest =>
      skipTrivia .lineComment ((position.after '/').after '/') rest
  | .blank, position, '/' :: '*' :: rest =>
      skipTrivia (.blockComment position) ((position.after '/').after '*') rest
  | .blank, position, char :: rest =>
      if isBlank char then skipTrivia .blank (position.after char) rest
      else ⟨position, char :: rest, none⟩
  | .lineComment, position, char :: rest =>
      skipTrivia (if char = '\n' then .blank else .lineComment)
        (position.after char) rest
  | .blockComment _, position, '*' :: '/' :: rest =>
      skipTrivia .blank ((position.after '*').after '/') rest
  | .blockComment start, position, char :: rest =>
      skipTrivia (.blockComment start) (position.after char) rest
  | .blockComment start, position, [] =>
      ⟨position, [], some (spanTo start position)⟩
  | _, position, [] => ⟨position, [], none⟩

/-! ## Words -/

def isWordStart (char : Char) : Bool :=
  char.isAlpha || char = '_' || char = '$'

def isWordPart (char : Char) : Bool :=
  char.isAlphanum || char = '_' || char = '$'

/-! ## Numbers -/

def isHexDigit (char : Char) : Bool :=
  char.isDigit || ('a' ≤ char && char ≤ 'f') || ('A' ≤ char && char ≤ 'F')

/-- The value of a digit; letters go on from ten. -/
def digitValue (char : Char) : Nat :=
  if char.isDigit then char.toNat - '0'.toNat
  else if 'a' ≤ char && char ≤ 'z' then char.toNat - 'a'.toNat + 10
  else char.toNat - 'A'.toNat + 10

/-- The number that digits denote in a base. -/
def digitsValue (base : Nat) (digits : List Char) : Nat :=
  digits.foldl (fun value digit => value * base + digitValue digit) 0

/-- The 64-bit number that digits denote in a base, if there is a digit, all
digits belong to the base and the number fits. -/
def wordValue? (base : Nat) (digits : List Char) : Option UInt64 :=
  let value := digitsValue base digits
  if digits.isEmpty || digits.any (fun digit => base ≤ digitValue digit) ||
      18446744073709551616 ≤ value then none
  else some (UInt64.ofNat value)

def withoutUnderscores (chars : List Char) : List Char :=
  chars.filter (· ≠ '_')

def isDigitOrUnderscore (char : Char) : Bool :=
  char.isDigit || char = '_'

/-- The base that the two first characters of a number announce. -/
def announcedBase? : List Char → Option Nat
  | '0' :: mark :: _ =>
      if mark = 'x' || mark = 'X' then some 16
      else if mark = 'b' || mark = 'B' then some 2
      else if mark = 'o' || mark = 'O' then some 8
      else none
  | _ => none

/-- The written parts of a decimal number. -/
structure DecimalParts where
  whole : List Char
  /-- The digits after the point, if there is one. -/
  fraction : Option (List Char)
  /-- The exponent's mark and sign, and its digits. -/
  exponent : Option (List Char × List Char)

/-- Splits off a decimal point and the digits after it. A point belongs to the
number only if a digit follows it. -/
def fraction? : List Char → Option (List Char) × List Char
  | '.' :: digit :: rest =>
      if digit.isDigit then
        (some ((digit :: rest).takeWhile isDigitOrUnderscore),
          (digit :: rest).dropWhile isDigitOrUnderscore)
      else (none, '.' :: digit :: rest)
  | chars => (none, chars)

/-- The exponent at the front of a text: its mark and sign, and its digits. An
exponent mark belongs to the number only if digits follow it. -/
def exponent? : List Char → Option (List Char × List Char)
  | mark :: rest =>
      if mark = 'e' || mark = 'E' then
        match rest with
        | sign :: digits =>
            if sign = '+' || sign = '-' then
              match digits.takeWhile Char.isDigit with
              | [] => none
              | digits => some ([mark, sign], digits)
            else
              match rest.takeWhile Char.isDigit with
              | [] => none
              | digits => some ([mark], digits)
        | [] => none
      else none
  | [] => none

def decimalParts (chars : List Char) : DecimalParts :=
  let whole := chars.takeWhile isDigitOrUnderscore
  let (fraction, rest) := fraction? (chars.dropWhile isDigitOrUnderscore)
  ⟨whole, fraction, exponent? rest⟩

namespace DecimalParts

def spelling (parts : DecimalParts) : List Char :=
  parts.whole ++
    (match parts.fraction with
      | some digits => '.' :: digits
      | none => []) ++
    match parts.exponent with
    | some (mark, digits) => mark ++ digits
    | none => []

/-- The double nearest to a number with a fraction or an exponent. -/
def value (parts : DecimalParts) : Float :=
  let fraction := withoutUnderscores (parts.fraction.getD [])
  let digits := digitsValue 10 (withoutUnderscores parts.whole ++ fraction)
  let power : Int :=
    match parts.exponent with
    | some (mark, digits) =>
        let size : Int := digitsValue 10 digits
        if mark.contains '-' then -size else size
    | none => 0
  Binary64.ofDecimal digits (power - fraction.length)

end DecimalParts

/-! ## Lexemes -/

/-- A piece of text that makes up one token, or the fault that it is. -/
structure Lexeme where
  size : Nat
  kind : Option TokenKind
  faults : List (SyntaxFault × Span)

/-- A number whose value is unknown makes a zero and a fault. -/
def numberLexeme (start : Position) (spelling : List Char)
    (kind : String → Option TokenKind) : Lexeme :=
  let text := String.ofList spelling
  match kind text with
  | some kind => ⟨spelling.length, some kind, []⟩
  | none =>
      ⟨spelling.length, some (.integer 0 text),
        [(.invalidNumber text, spanTo start (start.advance spelling))]⟩

def scanNumber (start : Position) (chars : List Char) : Lexeme :=
  match announcedBase? chars with
  | some base =>
      let digits := (chars.drop 2).takeWhile fun char =>
        isHexDigit char || char = '_'
      numberLexeme start (chars.take 2 ++ digits) fun text =>
        (wordValue? base (withoutUnderscores digits)).map (.integer · text)
  | none =>
      let parts := decimalParts chars
      numberLexeme start parts.spelling fun text =>
        if parts.fraction.isSome || parts.exponent.isSome then
          some (.float parts.value text)
        else
          (wordValue? 10 (withoutUnderscores parts.whole)).map (.integer · text)

/-- The first byte of a character's UTF-8 form, as a character. -/
def leadByte (char : Char) : Char :=
  Char.ofNat <|
    if char.toNat < 0x80 then char.toNat
    else if char.toNat < 0x800 then 0xc0 + char.toNat / 0x40
    else if char.toNat < 0x10000 then 0xe0 + char.toNat / 0x1000
    else 0xf0 + char.toNat / 0x40000

/-- What an escape sequence after its backslash takes, means and is found
wrong. -/
structure Escape where
  size : Nat
  content : List Char
  fault : Option SyntaxFault

/-- The scalar value that four hexadecimal digits denote. -/
def scalar? (digits : List Char) : Option Char :=
  let value := digitsValue 16 digits
  if digits.length = 4 && (value < 0xd800 || 0xe000 ≤ value) then
    some (Char.ofNat value)
  else none

/-- Reads an escape sequence after its backslash. An unknown escaped character
beyond ASCII counts as the bytes of its UTF-8 form, of which only the first one
stands for a character. -/
def readEscape : List Char → Escape
  | [] => ⟨0, [], some .unterminatedEscape⟩
  | 'n' :: _ => ⟨1, ['\n'], none⟩
  | 't' :: _ => ⟨1, ['\t'], none⟩
  | 'r' :: _ => ⟨1, ['\r'], none⟩
  | '0' :: _ => ⟨1, ['\x00'], none⟩
  | '\n' :: _ => ⟨1, [], none⟩
  | 'u' :: rest =>
      let digits := (rest.take 4).takeWhile isHexDigit
      match scalar? digits with
      | some char => ⟨1 + digits.length, [char], none⟩
      | none => ⟨1 + digits.length, [], some .invalidUnicodeEscape⟩
  | char :: _ =>
      if char = '\\' || char = '"' || char = '\x27' || char = '\x60' ||
          char = '$' then ⟨1, [char], none⟩
      else
        ⟨1, leadByte char :: List.replicate (char.utf8Size - 1) '\ufffd',
          some (.invalidEscape (leadByte char))⟩

/-- The content of a string up to its closing quote. -/
structure StringBody where
  size : Nat
  content : List Char
  faults : List (SyntaxFault × Span)
  isClosed : Bool

namespace StringBody

/-- Puts characters and faults in front of a body. -/
def prepend (body : StringBody) (content : List Char)
    (faults : List (SyntaxFault × Span)) : StringBody :=
  ⟨body.size + 1, content ++ body.content, faults ++ body.faults, body.isClosed⟩

end StringBody

/-- Reads the body of a string that ends with a quote. Only a template, whose
quote is the grave accent, may go on past the end of a line. The first argument
counts characters that an escape sequence has taken already. -/
def stringBody (quote : Char) : Nat → Position → List Char → StringBody
  | _, _, [] => ⟨0, [], [], false⟩
  | taken + 1, position, char :: rest =>
      (stringBody quote taken (position.after char) rest).prepend [] []
  | 0, position, char :: rest =>
      let next := position.after char
      if char = '\n' && quote ≠ '\x60' then ⟨0, [], [], false⟩
      else if char = quote then ⟨1, [], [], true⟩
      else if char = '\\' then
        let escape := readEscape rest
        (stringBody quote escape.size next rest).prepend escape.content
          (escape.fault.toList.map fun fault => (fault, .point next))
      else if char = '$' && quote = '\x60' && rest.head? = some '\x7b' then
        (stringBody quote 0 next rest).prepend ['$']
          [(.interpolation, .point position)]
      else (stringBody quote 0 next rest).prepend [char] []

def scanString (start : Position) (quote : Char) (rest : List Char) : Lexeme :=
  let body := stringBody quote 0 (start.after quote) rest
  let stop := (start.after quote).advance (rest.take body.size)
  ⟨body.size + 1, some (.string (String.ofList body.content)),
    body.faults ++
      if body.isClosed then []
      else [(.unterminatedString, spanTo start stop)]⟩

/-- The longest symbol at the front of a text. -/
def longestSymbol? (chars : List Char) : Option Symbol :=
  (Symbol.ofChars? (chars.take 3)).or <|
    (Symbol.ofChars? (chars.take 2)).or (Symbol.ofChars? (chars.take 1))

def startsNumber : List Char → Bool
  | '.' :: digit :: _ => digit.isDigit
  | char :: _ => char.isDigit
  | [] => false

/-- Reads the lexeme at the front of a text that starts with no blank and no
comment. A character that starts no token is a fault of its own. -/
def scanLexeme (start : Position) (char : Char) (rest : List Char) : Lexeme :=
  if char = '"' || char = '\x27' || char = '\x60' then
    scanString start char rest
  else if startsNumber (char :: rest) then scanNumber start (char :: rest)
  else if isWordStart char then
    let word := (char :: rest).takeWhile isWordPart
    ⟨word.length, some (.ofWord (String.ofList word)), []⟩
  else
    match longestSymbol? (char :: rest) with
    | some symbol => ⟨symbol.text.length, some (.symbol symbol), []⟩
    | none =>
        ⟨1, none,
          [(.unexpectedCharacter char, spanTo start (start.after char))]⟩

/-! ## Texts -/

/-- The tokens of a text and what is wrong with it. -/
structure Result where
  tokens : List Token
  diagnostics : Diagnostics

def report (source : SourceText) (diagnostics : Diagnostics)
    (faults : List (SyntaxFault × Span)) : Diagnostics :=
  faults.foldl
    (fun diagnostics fault =>
      diagnostics.push (fault.1.diagnostic source fault.2))
    diagnostics

/-- The end of the tokens at a position. -/
def finish (position : Position) (diagnostics : Diagnostics) : Result :=
  ⟨[⟨.endOfFile, .point position⟩], diagnostics⟩

/-- Reads tokens until the text or the room for errors is used up. The first
argument bounds the number of lexemes. -/
def scanFrom (source : SourceText) :
    Nat → Position → List Char → Diagnostics → Result
  | 0, position, _, diagnostics => finish position diagnostics
  | bound + 1, position, chars, diagnostics =>
      let trivia := skipTrivia .blank position chars
      let diagnostics :=
        match trivia.unclosed with
        | some span =>
            report source diagnostics [(.unterminatedComment, span)]
        | none => diagnostics
      match trivia.rest with
      | [] => finish trivia.position diagnostics
      | char :: rest =>
          if diagnostics.isFull then finish trivia.position diagnostics
          else
            let lexeme := scanLexeme trivia.position char rest
            let diagnostics := report source diagnostics lexeme.faults
            let next :=
              trivia.position.advance ((char :: rest).take lexeme.size)
            let remaining := (char :: rest).drop lexeme.size
            match lexeme.kind with
            | none => scanFrom source bound next remaining diagnostics
            | some kind =>
                let token : Token := ⟨kind, spanTo trivia.position next⟩
                let result :=
                  if diagnostics.isFull then finish next diagnostics
                  else scanFrom source bound next remaining diagnostics
                { result with tokens := token :: result.tokens }

end Scan

def SourceText.scan (source : SourceText) : Scan.Result :=
  let chars := source.text.toList
  Scan.scanFrom source (chars.length + 1) .first chars .empty

end PluginSurface
