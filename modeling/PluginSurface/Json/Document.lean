import PluginSurface.Json.Value
import PluginSurface.Number.Binary64

/-!
Reading documents. `Document.ofBytes?` checks only the form of a text and keeps
every object member in order, also the repeated ones; a string or a number that
is well formed but stands for no value is kept as such. `Document.value?` turns
the parts that a reader is interested in into values, so what it never looks at
has to be well formed and nothing more.
-/

namespace PluginSurface

/-- A well-formed document. A string is `none` if its escapes or bytes are no
text, and a number is `none` if it is beyond the range of a double. -/
inductive Document where
  | null
  | bool (value : Bool)
  | number (value : Option JsonNumber)
  | string (value : Option String)
  | array (items : List Document)
  | object (members : List (Option String × Document))
deriving Inhabited

namespace Document

abbrev Bytes := List UInt8

/-! ## Characters -/

def isBlank (byte : UInt8) : Bool :=
  byte == 0x20 || byte == 0x09 || byte == 0x0a || byte == 0x0d

def skipBlanks (input : Bytes) : Bytes :=
  input.dropWhile isBlank

def isDigit (byte : UInt8) : Bool :=
  0x30 ≤ byte && byte ≤ 0x39

def digitValue (byte : UInt8) : Nat :=
  byte.toNat - 0x30

def hexValue? (byte : UInt8) : Option Nat :=
  if isDigit byte then some (byte.toNat - 0x30)
  else if 0x61 ≤ byte && byte ≤ 0x66 then some (byte.toNat - 0x57)
  else if 0x41 ≤ byte && byte ≤ 0x46 then some (byte.toNat - 0x37)
  else none

/-- The value of four hexadecimal digits at the front, and what follows
them. -/
def hexUnit? : Bytes → Option (Nat × Bytes)
  | a :: b :: c :: d :: rest => do
      let a ← hexValue? a
      let b ← hexValue? b
      let c ← hexValue? c
      let d ← hexValue? d
      some (((a * 16 + b) * 16 + c) * 16 + d, rest)
  | _ => none

/-! ## Strings -/

/-- A piece of a string's content. -/
inductive Piece where
  | byte (value : UInt8)
  /-- A code unit written as `\u` and four digits. -/
  | unit (value : Nat)

/-- The pieces of a string up to its closing quote, and what follows it. The
first argument bounds the number of pieces. -/
def stringPieces? : Nat → Bytes → Option (List Piece × Bytes)
  | 0, _ => none
  | bound + 1, input =>
      let piece (value : UInt8) (rest : Bytes) := do
        let (pieces, rest) ← stringPieces? bound rest
        some (.byte value :: pieces, rest)
      match input with
      | [] => none
      | 0x22 :: rest => some ([], rest)
      | 0x5c :: 0x75 :: rest => do
          let (value, rest) ← hexUnit? rest
          let (pieces, rest) ← stringPieces? bound rest
          some (.unit value :: pieces, rest)
      | 0x5c :: 0x22 :: rest => piece 0x22 rest
      | 0x5c :: 0x5c :: rest => piece 0x5c rest
      | 0x5c :: 0x2f :: rest => piece 0x2f rest
      | 0x5c :: 0x62 :: rest => piece 0x08 rest
      | 0x5c :: 0x66 :: rest => piece 0x0c rest
      | 0x5c :: 0x6e :: rest => piece 0x0a rest
      | 0x5c :: 0x72 :: rest => piece 0x0d rest
      | 0x5c :: 0x74 :: rest => piece 0x09 rest
      | 0x5c :: _ => none
      | value :: rest => if value < 0x20 then none else piece value rest

def scalarBytes (value : Nat) : Bytes :=
  (String.singleton (Char.ofNat value)).toUTF8.toList

/-- The bytes of a string's content. Two code units of a surrogate pair make
one character; a surrogate without its partner makes none. -/
def pieceBytes? : List Piece → Option Bytes
  | [] => some []
  | .byte value :: rest => (pieceBytes? rest).map (value :: ·)
  | .unit high :: .unit low :: rest =>
      if 0xd800 ≤ high && high < 0xdc00 then
        if 0xdc00 ≤ low && low < 0xe000 then
          (pieceBytes? rest).map
            (scalarBytes
              (0x10000 + (high - 0xd800) * 0x400 + (low - 0xdc00)) ++ ·)
        else none
      else if 0xdc00 ≤ high && high < 0xe000 then none
      else (pieceBytes? (.unit low :: rest)).map (scalarBytes high ++ ·)
  | .unit value :: rest =>
      if 0xd800 ≤ value && value < 0xe000 then none
      else (pieceBytes? rest).map (scalarBytes value ++ ·)

def textOfBytes? (bytes : Bytes) : Option String :=
  String.fromUTF8? ⟨bytes.toArray⟩

/-- Reads a string whose opening quote has been consumed. -/
def string? (input : Bytes) : Option (Option String × Bytes) := do
  let (pieces, rest) ← stringPieces? (input.length + 1) input
  some ((pieceBytes? pieces).bind textOfBytes?, rest)

/-! ## Numbers -/

/-- The written parts of a number: the digits before and after the point, and
the exponent's sign and digits. -/
structure NumberParts where
  negative : Bool
  whole : Bytes
  fraction : Bytes
  power : Option (Bool × Bytes)

/-- A minus sign at the front, or none. -/
def sign (input : Bytes) : Bool × Bytes :=
  match input with
  | 0x2d :: rest => (true, rest)
  | _ => (false, input)

/-- The sign of an exponent, which may also be a plus sign. -/
def powerSign (input : Bytes) : Bool × Bytes :=
  match input with
  | 0x2b :: rest => (false, rest)
  | _ => sign input

/-- Reads at least one digit. -/
def digits? (input : Bytes) : Option (Bytes × Bytes) :=
  let digits := input.takeWhile isDigit
  if digits.isEmpty then none else some (digits, input.dropWhile isDigit)

/-- The digits before the point. A leading zero stands alone. -/
def whole? (input : Bytes) : Option (Bytes × Bytes) :=
  (digits? input).filter fun (digits, _) =>
    digits.head? != some 0x30 || digits.length == 1

/-- A point and digits behind it, or nothing. -/
def fraction? (input : Bytes) : Option (Bytes × Bytes) :=
  match input with
  | 0x2e :: rest => digits? rest
  | _ => some ([], input)

/-- An exponent mark and the exponent, or nothing. -/
def power? (input : Bytes) : Option (Option (Bool × Bytes) × Bytes) :=
  match input with
  | mark :: rest =>
      if mark == 0x65 || mark == 0x45 then do
        let (lowers, rest) := powerSign rest
        let (digits, rest) ← digits? rest
        some (some (lowers, digits), rest)
      else some (none, input)
  | [] => some (none, input)

/-- Reads the parts of a number. -/
def numberParts? (input : Bytes) : Option (NumberParts × Bytes) := do
  let (negative, input) := sign input
  let (whole, input) ← whole? input
  let (fraction, input) ← fraction? input
  let (power, input) ← power? input
  some (⟨negative, whole, fraction, power⟩, input)

/-- The largest significand that is collected digit by digit. -/
def significandLimit : Nat :=
  18446744073709551616

/-- Collects leading digits while the number they denote stays below the
limit, and gives the number, and how many digits were not taken. -/
def collectDigits (value : Nat) : Bytes → Nat × Nat
  | [] => (value, 0)
  | digit :: rest =>
      let next := value * 10 + digitValue digit
      if next < significandLimit then collectDigits next rest
      else (value, rest.length + 1)

/-- Multiplies a double by a power of ten, or divides it by one. Powers beyond
the greatest one that a double holds divide in steps; a product beyond the
range of doubles is no number. -/
def scaleByPower? : Nat → Float → Int → Option Float
  | 0, value, _ => some value
  | bound + 1, value, exponent =>
      if exponent.natAbs ≤ 308 then
        let power := Binary64.ofDecimal 1 exponent.natAbs
        if 0 ≤ exponent then
          let scaled := value * power
          if scaled.isInf then none else some scaled
        else some (value / power)
      else if value == 0.0 then some value
      else if 0 ≤ exponent then none
      else
        scaleByPower? bound (value / Binary64.ofDecimal 1 308) (exponent + 308)

/-- The double with the given leading digits and exponent. A double has
vanished after three divisions by the greatest power of ten. -/
def realOfParts? (negative : Bool) (significand : Nat) (exponent : Int) :
    Option Float :=
  (scaleByPower? 8 (Binary64.ofRatio false significand 1) exponent).map
    fun value => if negative then -value else value

/-- A written exponent, if it stays within 31 bits. -/
def powerValue? (digits : Bytes) : Option Int :=
  let value := digits.foldl (fun value digit => value * 10 + digitValue digit) 0
  if value < 2147483648 then some value else none

def clampPower (value : Int) : Int :=
  if value < -2147483648 then -2147483648
  else if 2147483647 < value then 2147483647
  else value

/-- The number that the parts stand for. Digits are collected into a 64-bit
significand; once it is full, further digits before the point count only as
powers of ten and further digits after it do not count. -/
def numberOfParts? (parts : NumberParts) : Option JsonNumber :=
  let (whole, dropped) := collectDigits 0 parts.whole
  if dropped == 0 && parts.fraction.isEmpty && parts.power.isNone then
    if !parts.negative then some (.whole whole)
    else if whole == 0 || 9223372036854775808 < whole then
      some (.real (-(Binary64.ofRatio false whole 1)))
    else some (.whole (-whole))
  else
    let (significand, ignored) := collectDigits whole parts.fraction
    let base : Int := dropped - (parts.fraction.length - ignored)
    match parts.power with
    | none => (realOfParts? parts.negative significand base).map .real
    | some (lowers, digits) =>
        match powerValue? digits with
        | some power =>
            let power := clampPower (if lowers then base - power else base + power)
            (realOfParts? parts.negative significand power).map .real
        | none =>
            if significand != 0 && !lowers then none
            else some (.real (if parts.negative then -0.0 else 0.0))

/-! ## Values -/

def literal? (word : String) (input : Bytes) : Option Bytes :=
  let bytes := word.toUTF8.toList
  if bytes.isPrefixOf input then some (input.drop bytes.length) else none

mutual

/-- Reads one value, after blanks. The first argument bounds the work and is
never the cause of a refusal if it exceeds twice the input's length. -/
def value (bound : Nat) (input : Bytes) : Option (Document × Bytes) :=
  match bound with
  | 0 => none
  | bound + 1 =>
      match skipBlanks input with
      | [] => none
      | 0x22 :: rest => do
          let (text, rest) ← string? rest
          some (.string text, rest)
      | 0x5b :: rest =>
          match skipBlanks rest with
          | 0x5d :: rest => some (.array [], rest)
          | _ => do
              let (items, rest) ← items bound rest
              some (.array items, rest)
      | 0x7b :: rest =>
          match skipBlanks rest with
          | 0x7d :: rest => some (.object [], rest)
          | _ => do
              let (members, rest) ← members bound rest
              some (.object members, rest)
      | input@(first :: _) =>
          if first == 0x6e then do
            let rest ← literal? "null" input
            some (.null, rest)
          else if first == 0x74 then do
            let rest ← literal? "true" input
            some (.bool true, rest)
          else if first == 0x66 then do
            let rest ← literal? "false" input
            some (.bool false, rest)
          else do
            let (parts, rest) ← numberParts? input
            some (.number (numberOfParts? parts), rest)

/-- Reads the items of an array and its closing bracket. -/
def items (bound : Nat) (input : Bytes) : Option (List Document × Bytes) :=
  match bound with
  | 0 => none
  | bound + 1 => do
      let (item, rest) ← value bound input
      match skipBlanks rest with
      | 0x2c :: rest => do
          let (more, rest) ← items bound rest
          some (item :: more, rest)
      | 0x5d :: rest => some ([item], rest)
      | _ => none

/-- Reads the members of an object and its closing brace. -/
def members (bound : Nat) (input : Bytes) :
    Option (List (Option String × Document) × Bytes) :=
  match bound with
  | 0 => none
  | bound + 1 => do
      let (key, rest) ←
        match skipBlanks input with
        | 0x22 :: rest => string? rest
        | _ => none
      let rest ←
        match skipBlanks rest with
        | 0x3a :: rest => some rest
        | _ => none
      let (item, rest) ← value bound rest
      match skipBlanks rest with
      | 0x2c :: rest => do
          let (more, rest) ← members bound rest
          some ((key, item) :: more, rest)
      | 0x7d :: rest => some ([(key, item)], rest)
      | _ => none

end

/-- Reads a whole text: one value with nothing but blanks around it. -/
def ofBytes? (input : Bytes) : Option Document := do
  let (document, rest) ← value (2 * input.length + 2) input
  if (skipBlanks rest).isEmpty then some document else none

def ofText? (text : String) : Option Document :=
  ofBytes? text.toUTF8.toList

/-! ## Contents -/

/-- How deep containers may stand in each other. -/
def depthLimit : Nat :=
  127

mutual

/-- The value of a document whose containers nest at most `depth` levels. The
members of an object come in key order, the last one of each key. -/
def value? (depth : Nat) : Document → Option Json
  | .null => some .null
  | .bool value => some (.bool value)
  | .number value => value.map .number
  | .string value => value.map .string
  | .array items =>
      match depth with
      | 0 => none
      | depth + 1 => (itemValues? depth items).map .array
  | .object members =>
      match depth with
      | 0 => none
      | depth + 1 =>
          (memberValues? depth members).map fun members =>
            .object (Dict.ofEntries members)

def itemValues? (depth : Nat) : List Document → Option (List Json)
  | [] => some []
  | item :: rest => do
      let item ← item.value? depth
      let rest ← itemValues? depth rest
      some (item :: rest)

def memberValues? (depth : Nat) :
    List (Option String × Document) → Option (List (String × Json))
  | [] => some []
  | (key, item) :: rest => do
      let key ← key
      let item ← item.value? depth
      let rest ← memberValues? depth rest
      some ((key, item) :: rest)

end

/-! ## Records -/

/-- The members of an object under known keys, in the order of the keys. Every
key has to be a text, a known key stands at most once, and the members under
other keys do not matter. -/
def knownMembers? (keys : List String)
    (members : List (Option String × Document)) :
    Option (List (Option Document)) :=
  if members.any fun entry => entry.1.isNone then none
  else
    keys.mapM fun key =>
      match members.filter fun entry => entry.1 == some key with
      | [] => some none
      | [(_, value)] => some (some value)
      | _ => none

/-- The parts of a record under their keys. A record is written as an object, or
as an array of its parts from the first one on. -/
def parts? (keys : List String) : Document → Option (List (Option Document))
  | .object members => knownMembers? keys members
  | .array items =>
      if items.length ≤ keys.length then
        some (items.map some ++
          List.replicate (keys.length - items.length) none)
      else none
  | _ => none

def text? : Document → Option String
  | .string text => text
  | _ => none

def bool? : Document → Option Bool
  | .bool value => some value
  | _ => none

/-- A whole number that fits in 32 bits. -/
def word? : Document → Option Nat
  | .number (some (.whole value)) =>
      if 0 ≤ value && value < 4294967296 then some value.toNat else none
  | _ => none

def items? : Document → Option (List Document)
  | .array items => some items
  | _ => none

/-- A part that may be left out or null. -/
def nullable? {Part : Type} (read : Document → Option Part) :
    Option Document → Option (Option Part)
  | none => some none
  | some .null => some none
  | some document => (read document).map some

end Document

namespace Json

def ofText? (text : String) : Option Json :=
  (Document.ofText? text).bind (Document.value? Document.depthLimit)

mutual

def toDocument : Json → Document
  | .null => .null
  | .bool value => .bool value
  | .number value => .number (some value)
  | .string value => .string (some value)
  | .array items => .array (toDocuments items)
  | .object members => .object (toDocumentMembers members)

def toDocuments : List Json → List Document
  | [] => []
  | item :: rest => item.toDocument :: toDocuments rest

def toDocumentMembers :
    List (String × Json) → List (Option String × Document)
  | [] => []
  | (key, value) :: rest =>
      (some key, value.toDocument) :: toDocumentMembers rest

end

end Json

end PluginSurface
