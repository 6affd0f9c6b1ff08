import PluginSurface.Source.Span

/-!
Tokens of the script language: literals, names, reserved words and symbols.
-/

namespace PluginSurface

/-- The reserved words. -/
inductive Keyword where
  | exportWord | importWord | fromWord | asWord
  | functionWord | declareWord | classWord | letWord | constWord | varWord
  | readonlyWord | publicWord | privateWord
  | ifWord | elseWord | returnWord | throwWord | whileWord
  | newWord | thisWord | trueWord | falseWord | nullWord
deriving DecidableEq, Inhabited

namespace Keyword

def text : Keyword → String
  | exportWord => "export"
  | importWord => "import"
  | fromWord => "from"
  | asWord => "as"
  | functionWord => "function"
  | declareWord => "declare"
  | classWord => "class"
  | letWord => "let"
  | constWord => "const"
  | varWord => "var"
  | readonlyWord => "readonly"
  | publicWord => "public"
  | privateWord => "private"
  | ifWord => "if"
  | elseWord => "else"
  | returnWord => "return"
  | throwWord => "throw"
  | whileWord => "while"
  | newWord => "new"
  | thisWord => "this"
  | trueWord => "true"
  | falseWord => "false"
  | nullWord => "null"

def all : List Keyword :=
  [exportWord, importWord, fromWord, asWord, functionWord, declareWord,
    classWord, letWord, constWord, varWord, readonlyWord, publicWord,
    privateWord, ifWord, elseWord, returnWord, throwWord, whileWord, newWord,
    thisWord, trueWord, falseWord, nullWord]

def ofText? (text : String) : Option Keyword :=
  all.find? fun keyword => keyword.text == text

/-- Reserved words that may also serve as plain names. -/
def isContextual : Keyword → Bool
  | fromWord | asWord | declareWord | readonlyWord | publicWord
  | privateWord => true
  | _ => false

end Keyword

/-- Operators and punctuation. -/
inductive Symbol where
  | plus | minus | star | slash | percent
  | ampersand | doubleAmpersand | pipe | doublePipe | caret | tilde | bang
  | equal | doubleEqual | tripleEqual | bangEqual | bangDoubleEqual
  | less | greater | lessEqual | greaterEqual
  | doubleLess | doubleGreater | tripleGreater
  | plusEqual | minusEqual | starEqual | slashEqual | percentEqual
  | ampersandEqual | pipeEqual | caretEqual
  | openParen | closeParen | openBrace | closeBrace | openBracket | closeBracket
  | comma | semicolon | colon | dot | question | atSign
deriving DecidableEq, Inhabited

namespace Symbol

def text : Symbol → String
  | plus => "+"
  | minus => "-"
  | star => "*"
  | slash => "/"
  | percent => "%"
  | ampersand => "&"
  | doubleAmpersand => "&&"
  | pipe => "|"
  | doublePipe => "||"
  | caret => "^"
  | tilde => "~"
  | bang => "!"
  | equal => "="
  | doubleEqual => "=="
  | tripleEqual => "==="
  | bangEqual => "!="
  | bangDoubleEqual => "!=="
  | less => "<"
  | greater => ">"
  | lessEqual => "<="
  | greaterEqual => ">="
  | doubleLess => "<<"
  | doubleGreater => ">>"
  | tripleGreater => ">>>"
  | plusEqual => "+="
  | minusEqual => "-="
  | starEqual => "*="
  | slashEqual => "/="
  | percentEqual => "%="
  | ampersandEqual => "&="
  | pipeEqual => "|="
  | caretEqual => "^="
  | openParen => "("
  | closeParen => ")"
  | openBrace => "\x7b"
  | closeBrace => "\x7d"
  | openBracket => "["
  | closeBracket => "]"
  | comma => ","
  | semicolon => ";"
  | colon => ":"
  | dot => "."
  | question => "?"
  | atSign => "@"

def all : List Symbol :=
  [plus, minus, star, slash, percent, ampersand, doubleAmpersand, pipe,
    doublePipe, caret, tilde, bang, equal, doubleEqual, tripleEqual, bangEqual,
    bangDoubleEqual, less, greater, lessEqual, greaterEqual, doubleLess,
    doubleGreater, tripleGreater, plusEqual, minusEqual, starEqual, slashEqual,
    percentEqual, ampersandEqual, pipeEqual, caretEqual, openParen, closeParen,
    openBrace, closeBrace, openBracket, closeBracket, comma, semicolon, colon,
    dot, question, atSign]

def ofChars? (chars : List Char) : Option Symbol :=
  all.find? fun symbol => symbol.text.toList == chars

end Symbol

/-- What a token is. -/
inductive TokenKind where
  /-- A whole number, with its spelling. -/
  | integer (value : UInt64) (spelling : String)
  /-- A number with a fraction or an exponent, with its spelling. -/
  | float (value : Float) (spelling : String)
  /-- A string, by its content. -/
  | string (content : String)
  | identifier (name : String)
  | keyword (word : Keyword)
  | symbol (mark : Symbol)
  | endOfFile
deriving Inhabited

namespace TokenKind

def text : TokenKind → String
  | integer _ spelling => spelling
  | float _ spelling => spelling
  | string content => "\"" ++ content ++ "\""
  | identifier name => name
  | keyword word => word.text
  | symbol mark => mark.text
  | endOfFile => "end of file"

def isKeyword (kind : TokenKind) (expected : Keyword) : Bool :=
  match kind with
  | keyword word => word == expected
  | _ => false

def isSymbol (kind : TokenKind) (expected : Symbol) : Bool :=
  match kind with
  | symbol mark => mark == expected
  | _ => false

def isIdentifier (kind : TokenKind) (expected : String) : Bool :=
  match kind with
  | identifier name => name == expected
  | _ => false

def isEndOfFile : TokenKind → Bool
  | endOfFile => true
  | _ => false

/-- The kind of a word: a reserved word or a name. -/
def ofWord (word : String) : TokenKind :=
  match Keyword.ofText? word with
  | some reserved => keyword reserved
  | none => identifier word

end TokenKind

/-- A token and where it stands. -/
structure Token where
  kind : TokenKind
  span : Span
deriving Inhabited

end PluginSurface
