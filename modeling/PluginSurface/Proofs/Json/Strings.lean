import PluginSurface.Json.Document
import PluginSurface.Json.Text
import PluginSurface.Proofs.Source.Utf8

/-!
# Strings are read as they were written

A written string is a sequence of pieces, one or more for each character. The
pieces of a character stand for its bytes again, whichever way it was escaped.
-/

namespace PluginSurface.Document

open Json (escapeChar hexDigit)
open Utf8 (encode)

/-! ## Pieces -/

/-- Whether a character is written as `\u` and four digits. -/
def isUnit (char : Char) : Bool :=
  char.toNat < 32 && !(['\x08', '\x0c', '\n', '\r', '\t'].contains char)

/-- The pieces that a character is written in. -/
def charPieces (char : Char) : List Piece :=
  if isUnit char then [.unit char.toNat]
  else (String.utf8EncodeChar char).map .byte

/-- What is read once some pieces stand in front of it. -/
def behind (pieces : List Piece) (read : List Piece × Bytes) :
    List Piece × Bytes :=
  (pieces ++ read.1, read.2)

theorem behind_behind (first second : List Piece) :
    behind first ∘ behind second = behind (first ++ second) := by
  funext read
  simp [behind]

theorem map_behind_nil (read : Option (List Piece × Bytes)) :
    read.map (behind []) = read := by
  cases read <;> rfl

theorem stringPieces?_of_plain {byte : UInt8} (printable : 32 ≤ byte.toNat)
    (noQuote : byte ≠ 0x22) (noBackslash : byte ≠ 0x5c) (bound : Nat)
    (rest : Bytes) :
    stringPieces? (bound + 1) (byte :: rest) =
      (stringPieces? bound rest).map (behind [.byte byte]) := by
  have notControl : ¬ byte < 0x20 := by
    rw [UInt8.lt_iff_toNat_lt]
    simpa using printable
  rw [stringPieces?, if_neg notControl]
  · cases read : stringPieces? bound rest <;> simp [read, behind]
  all_goals simp [noQuote, noBackslash]

theorem stringPieces?_of_allPlain {bytes : Bytes}
    (plain : ∀ byte ∈ bytes, 128 ≤ byte.toNat) (bound : Nat) (rest : Bytes) :
    stringPieces? (bound + bytes.length) (bytes ++ rest) =
      (stringPieces? bound rest).map (behind (bytes.map .byte)) := by
  induction bytes with
  | nil => exact (map_behind_nil _).symm
  | cons byte bytes inductionHypothesis =>
      have high : 128 ≤ byte.toNat := plain byte List.mem_cons_self
      have noQuote : byte ≠ 0x22 := by
        rintro rfl
        exact absurd high (by decide)
      have noBackslash : byte ≠ 0x5c := by
        rintro rfl
        exact absurd high (by decide)
      rw [List.length_cons, List.cons_append, ← Nat.add_assoc,
        stringPieces?_of_plain (by omega) noQuote noBackslash,
        inductionHypothesis fun byte member =>
          plain byte (List.mem_cons_of_mem _ member),
        Option.map_map, behind_behind]
      rfl

theorem hexValue?_hexDigit (value : Nat) :
    hexValue? (UInt8.ofNat (hexDigit value).toNat) = some (value % 16) := by
  have digits : ∀ digit < 16,
      hexValue? (UInt8.ofNat (Nat.digitChar digit).toNat) = some digit := by
    decide
  exact digits (value % 16) (Nat.mod_lt _ (by decide))

theorem utf8EncodeChar_hexDigit (value : Nat) :
    String.utf8EncodeChar (hexDigit value) =
      [UInt8.ofNat (hexDigit value).toNat] := by
  have small : ∀ digit < 16, (Nat.digitChar digit).toNat < 128 := by
    decide
  exact Utf8.utf8EncodeChar_of_small
    (small (value % 16) (Nat.mod_lt _ (by decide)))

/-- A control character without an escape of its own is written by its code. -/
theorem stringPieces?_of_isUnit {char : Char} (unit : isUnit char = true)
    (bound : Nat) (rest : Bytes) :
    stringPieces? (bound + 1) (encode (escapeChar char) ++ rest) =
      (stringPieces? bound rest).map (behind [.unit char.toNat]) := by
  have small : char.toNat < 32 := by
    simp only [isUnit, Bool.and_eq_true, decide_eq_true_eq] at unit
    exact unit.1
  have escaped : escapeChar char =
      ['\\', 'u', '0', '0', hexDigit (char.toNat / 16),
        hexDigit char.toNat] := by
    unfold escapeChar
    split
    all_goals first | exact absurd unit (by decide) | exact if_pos small
  have code : hexUnit? (0x30 :: 0x30 ::
      UInt8.ofNat (hexDigit (char.toNat / 16)).toNat ::
        UInt8.ofNat (hexDigit char.toNat).toNat :: rest) =
      some (char.toNat, rest) := by
    have zero : hexValue? 0x30 = some 0 := rfl
    have value : char.toNat / 16 % 16 * 16 + char.toNat % 16 = char.toNat := by
      omega
    simp [hexUnit?, zero, hexValue?_hexDigit, value]
  have written : encode (escapeChar char) ++ rest =
      0x5c :: 0x75 :: 0x30 :: 0x30 ::
        UInt8.ofNat (hexDigit (char.toNat / 16)).toNat ::
          UInt8.ofNat (hexDigit char.toNat).toNat :: rest := by
    rw [escaped]
    simp only [Utf8.encode_cons, utf8EncodeChar_hexDigit]
    rfl
  rw [written, stringPieces?, code]
  cases read : stringPieces? bound rest <;> simp [read, behind]

theorem stringPieces?_of_notEscaped {char : Char} (noQuote : char ≠ '"')
    (noBackslash : char ≠ '\\') (printable : 32 ≤ char.toNat) (bound : Nat)
    (rest : Bytes) :
    stringPieces? (bound + (String.utf8EncodeChar char).length)
        (String.utf8EncodeChar char ++ rest) =
      (stringPieces? bound rest).map
        (behind ((String.utf8EncodeChar char).map .byte)) := by
  by_cases small : char.toNat < 128
  · have value : (UInt8.ofNat char.toNat).toNat = char.toNat := by
      rw [UInt8.toNat_ofNat']
      omega
    have other {code : UInt8} (different : char ≠ Char.ofNat code.toNat) :
        UInt8.ofNat char.toNat ≠ code := by
      rintro rfl
      rw [value, Char.ofNat_toNat] at different
      exact different rfl
    rw [Utf8.utf8EncodeChar_of_small small]
    exact stringPieces?_of_plain (by omega) (other noQuote) (other noBackslash)
      bound rest
  · exact stringPieces?_of_allPlain
      (fun byte => Utf8.high_of_mem_utf8EncodeChar (Nat.le_of_not_lt small))
      bound rest

/-- An escaped character stands for its pieces. -/
theorem stringPieces?_escapeChar (char : Char) (bound : Nat) (rest : Bytes) :
    stringPieces? (bound + (charPieces char).length)
        (encode (escapeChar char) ++ rest) =
      (stringPieces? bound rest).map (behind (charPieces char)) := by
  by_cases unit : isUnit char = true
  · rw [charPieces, if_pos unit]
    exact stringPieces?_of_isUnit unit bound rest
  · rw [charPieces, if_neg unit]
    unfold escapeChar
    split
    iterate 7 cases read : stringPieces? bound rest <;>
      simp [String.utf8EncodeChar, stringPieces?, read, behind]
    rename_i noQuote noBackslash noBack noFeed noLine noReturn noTab
    have printable : 32 ≤ char.toNat := by
      by_contra control
      simp_all [isUnit]
    rw [if_neg (by omega), Utf8.encode_cons, Utf8.encode_nil, List.append_nil]
    rw [List.length_map]
    exact stringPieces?_of_notEscaped noQuote noBackslash printable bound rest

theorem stringPieces?_escaped {chars : List Char} {bound : Nat}
    (enough : (chars.flatMap charPieces).length < bound) (rest : Bytes) :
    stringPieces? bound
        (encode (chars.flatMap escapeChar) ++ 0x22 :: rest) =
      some (chars.flatMap charPieces, rest) := by
  induction chars generalizing bound with
  | nil =>
      obtain ⟨bound, rfl⟩ := Nat.exists_eq_add_of_lt enough
      exact stringPieces?.eq_3 _ rest
  | cons char chars inductionHypothesis =>
      rw [List.flatMap_cons, List.length_append] at enough
      obtain ⟨bound, rfl⟩ := Nat.exists_eq_add_of_le'
        (Nat.le_of_lt (Nat.lt_of_le_of_lt (Nat.le_add_right _ _) enough))
      rw [List.flatMap_cons, List.flatMap_cons, Utf8.encode_append,
        List.append_assoc, stringPieces?_escapeChar,
        inductionHypothesis (by omega)]
      rfl

/-! ## Bytes of pieces -/

theorem pieceBytes?_bytes (bytes : Bytes) (rest : List Piece) :
    pieceBytes? (bytes.map .byte ++ rest) =
      (pieceBytes? rest).map (bytes ++ ·) := by
  induction bytes with
  | nil => simp
  | cons byte bytes inductionHypothesis =>
      simp [pieceBytes?, inductionHypothesis, Function.comp_def]

/-- A code unit below the surrogates stands for itself, whatever follows. -/
theorem pieceBytes?_unit {value : Nat} (small : value < 0xd800)
    (rest : List Piece) :
    pieceBytes? (.unit value :: rest) =
      (pieceBytes? rest).map (scalarBytes value ++ ·) := by
  have notHigh : ¬ 0xd800 ≤ value := by omega
  have notLow : ¬ 0xdc00 ≤ value := by omega
  rcases rest with _ | ⟨_ | low, rest⟩ <;> simp [pieceBytes?, notHigh, notLow]

theorem scalarBytes_toNat (char : Char) :
    scalarBytes char.toNat = String.utf8EncodeChar char := by
  rw [scalarBytes, Char.ofNat_toNat, Utf8.toUTF8_toList,
    String.toList_singleton]
  exact List.append_nil _

theorem pieceBytes?_charPieces (char : Char) (rest : List Piece) :
    pieceBytes? (charPieces char ++ rest) =
      (pieceBytes? rest).map (String.utf8EncodeChar char ++ ·) := by
  unfold charPieces
  by_cases unit : isUnit char = true
  · have small : char.toNat < 0xd800 := by
      simp only [isUnit, Bool.and_eq_true, decide_eq_true_eq] at unit
      omega
    rw [if_pos unit, List.singleton_append, pieceBytes?_unit small,
      scalarBytes_toNat]
  · rw [if_neg unit, pieceBytes?_bytes]

theorem pieceBytes?_flatMap (chars : List Char) :
    pieceBytes? (chars.flatMap charPieces) = some (encode chars) := by
  induction chars with
  | nil => rfl
  | cons char chars inductionHypothesis =>
      rw [List.flatMap_cons, pieceBytes?_charPieces, inductionHypothesis]
      rfl

/-! ## Strings -/

/-- No character takes more pieces than its escaped form has bytes. -/
theorem length_charPieces_le (char : Char) :
    (charPieces char).length ≤ (encode (escapeChar char)).length := by
  have backslash : String.utf8EncodeChar '\\' = [0x5c] := rfl
  unfold escapeChar
  split
  iterate 7 decide
  by_cases control : char.toNat < 32
  · have unit : isUnit char = true := by simp_all [isUnit]
    rw [charPieces, if_pos unit, if_pos control, Utf8.encode_cons, backslash]
    exact Nat.succ_le_succ (Nat.zero_le _)
  · have plain : ¬ isUnit char = true := by simp [isUnit, control]
    rw [charPieces, if_neg plain, if_neg control]
    simp

theorem length_flatMap_charPieces_le (chars : List Char) :
    (chars.flatMap charPieces).length ≤
      (encode (chars.flatMap escapeChar)).length := by
  induction chars with
  | nil => exact Nat.le_refl 0
  | cons char chars inductionHypothesis =>
      have first := length_charPieces_le char
      simp only [List.flatMap_cons, Utf8.encode_append, List.length_append]
      omega

/-- A string is read as it was written. -/
theorem string?_escaped (text : String) (rest : Bytes) :
    string? (encode (text.toList.flatMap escapeChar) ++ 0x22 :: rest) =
      some (some text, rest) := by
  have sizes := length_flatMap_charPieces_le text.toList
  have enough : (text.toList.flatMap charPieces).length <
      (encode (text.toList.flatMap escapeChar) ++ 0x22 :: rest).length + 1 := by
    rw [List.length_append]
    omega
  have readable : textOfBytes? (encode text.toList) = some text := by
    rw [← Utf8.toUTF8_toList]
    exact Utf8.fromUTF8?_toUTF8 text
  rw [string?, stringPieces?_escaped enough]
  simp [pieceBytes?_flatMap, readable]

end PluginSurface.Document
