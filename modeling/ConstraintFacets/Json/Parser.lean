import ConstraintFacets.Json.Basic

/-! # Reading JSON

Strict JSON from its characters: no comments, no commas at the end, no leading
zeros, no control characters in strings, and nothing but blanks around the value
(`ConstraintFacets.Json.parse`). Only the grammar is checked here. How deep
values may nest, whether a number can be held and whether a literal denotes a
text is asked when a value is used.
-/

namespace ConstraintFacets.Json

/-- Whether a character may stand between tokens. -/
def isSpace (c : Char) : Bool :=
  c == ' ' || c == '\t' || c == '\n' || c == '\r'

/-- Leaves out the blanks before the next token. -/
def skipSpace (text : List Char) : List Char :=
  text.dropWhile isSpace

/-- One or more digits, with what follows them. -/
def scanDigits (text : List Char) : Option (List Char × List Char) :=
  let digits := text.takeWhile Char.isDigit
  if digits.isEmpty then none else some (digits, text.dropWhile Char.isDigit)

/-- The digits before the point. After a zero no digit belongs to the number. -/
def scanIntegral : List Char → Option (Nat × List Char)
  | '0' :: rest => some (0, rest)
  | text => (scanDigits text).map fun scanned => (Integer.ofDigits scanned.1, scanned.2)

/-- A point and the digits after it, if a point comes next. -/
def scanFraction : List Char → Option (List (Fin 10) × List Char)
  | '.' :: rest => (scanDigits rest).map fun scanned =>
      (scanned.1.map Integer.digitValue, scanned.2)
  | text => some ([], text)

/-- The exponent, if a mark of one comes next. -/
def scanExponent : List Char → Option (Option Int × List Char)
  | [] => some (none, [])
  | c :: rest =>
    if c = 'e' ∨ c = 'E' then
      match rest with
      | '-' :: more => (scanDigits more).map fun scanned =>
          (some (-(Integer.ofDigits scanned.1 : Int)), scanned.2)
      | '+' :: more => (scanDigits more).map fun scanned =>
          (some (Integer.ofDigits scanned.1 : Int), scanned.2)
      | more => (scanDigits more).map fun scanned =>
          (some (Integer.ofDigits scanned.1 : Int), scanned.2)
    else some (none, c :: rest)

/-- A minus sign, if one comes next. -/
def scanSign : List Char → Bool × List Char
  | '-' :: rest => (true, rest)
  | text => (false, text)

/-- A number, with what follows it. -/
def scanNumber (text : List Char) : Option (JsonNumber × List Char) := do
  let (negative, text) := scanSign text
  let (integral, text) ← scanIntegral text
  let (fraction, text) ← scanFraction text
  let (exponent, text) ← scanExponent text
  some ({ negative, integral, fraction, exponent }, text)

/-- A piece of a string literal: a character, or half of a surrogate pair. -/
inductive Piece where
  | char (c : Char)
  | half (unit : Nat)
deriving DecidableEq

/-- The value of a hexadecimal digit. -/
def hexValue? (c : Char) : Option Nat :=
  if '0' ≤ c ∧ c ≤ '9' then some (c.toNat - '0'.toNat)
  else if 'a' ≤ c ∧ c ≤ 'f' then some (c.toNat - 'a'.toNat + 10)
  else if 'A' ≤ c ∧ c ≤ 'F' then some (c.toNat - 'A'.toNat + 10)
  else none

/-- The piece that an escape with four hexadecimal digits stands for. -/
def pieceOfHex? (a b c d : Char) : Option Piece := do
  let unit := (((← hexValue? a) * 16 + (← hexValue? b)) * 16 + (← hexValue? c)) * 16 +
    (← hexValue? d)
  some (if 0xD800 ≤ unit ∧ unit < 0xE000 then .half unit else .char (Char.ofNat unit))

/-- The character that an escape with a single letter stands for. -/
def shortEscape? : Char → Option Char
  | '"' => some '"'
  | '\\' => some '\\'
  | '/' => some '/'
  | 'b' => some '\x08'
  | 'f' => some '\x0c'
  | 'n' => some '\n'
  | 'r' => some '\r'
  | 't' => some '\t'
  | _ => none

/-- The pieces of a literal up to its closing quote, with what follows it. -/
def scanPieces : List Char → Option (List Piece × List Char)
  | [] => none
  | '"' :: rest => some ([], rest)
  | '\\' :: 'u' :: a :: b :: c :: d :: rest => do
    let piece ← pieceOfHex? a b c d
    let (pieces, rest) ← scanPieces rest
    some (piece :: pieces, rest)
  | '\\' :: c :: rest => do
    let meant ← shortEscape? c
    let (pieces, rest) ← scanPieces rest
    some (.char meant :: pieces, rest)
  | c :: rest =>
    if c.toNat < 0x20 ∨ c = '\\' then none
    else do
      let (pieces, rest) ← scanPieces rest
      some (.char c :: pieces, rest)

/-- The character of a surrogate pair. -/
def charOfHalves? (high low : Nat) : Option Char :=
  if high < 0xDC00 ∧ 0xDC00 ≤ low then
    some (Char.ofNat (0x10000 + (high - 0xD800) * 0x400 + (low - 0xDC00)))
  else none

/-- The characters of a literal, if each half of a surrogate pair has its other
half. -/
def charsOfPieces? : List Piece → Option (List Char)
  | [] => some []
  | .char c :: rest => (charsOfPieces? rest).map (c :: ·)
  | .half high :: .half low :: rest => do
    let c ← charOfHalves? high low
    let chars ← charsOfPieces? rest
    some (c :: chars)
  | .half _ :: _ => none

/-- The text that the pieces of a literal denote, if they denote one. -/
def textOfPieces (pieces : List Piece) : Option String :=
  (charsOfPieces? pieces).map String.ofList

/-- The rest of a string literal after its opening quote. -/
def scanString (text : List Char) : Option (Option String × List Char) :=
  (scanPieces text).map fun scanned => (textOfPieces scanned.1, scanned.2)

/-- What follows a given word, if the text starts with the word. -/
def afterWord? : List Char → List Char → Option (List Char)
  | [], text => some text
  | _, [] => none
  | c :: word, d :: text => if c = d then afterWord? word text else none

/-- One of the three literal names. -/
def scanName (text : List Char) : Option (Json × List Char) :=
  match afterWord? ['n', 'u', 'l', 'l'] text, afterWord? ['t', 'r', 'u', 'e'] text,
    afterWord? ['f', 'a', 'l', 's', 'e'] text with
  | some rest, _, _ => some (.null, rest)
  | _, some rest, _ => some (.bool true, rest)
  | _, _, some rest => some (.bool false, rest)
  | none, none, none => none

mutual

/-- A value, with what follows it. The number bounds the steps; twice the length
of the text is enough. -/
def parseValue : Nat → List Char → Option (Json × List Char)
  | 0, _ => none
  | steps + 1, text =>
    match skipSpace text with
    | '"' :: rest => (scanString rest).map fun scanned => (.string scanned.1, scanned.2)
    | '[' :: rest =>
      match skipSpace rest with
      | ']' :: after => some (.array [], after)
      | inside => (parseItems steps inside).map fun parsed => (.array parsed.1, parsed.2)
    | '{' :: rest =>
      match skipSpace rest with
      | '}' :: after => some (.object [], after)
      | inside => (parseMembers steps inside).map fun parsed => (.object parsed.1, parsed.2)
    | start =>
      match scanName start with
      | some named => some named
      | none => (scanNumber start).map fun scanned => (.number scanned.1, scanned.2)

/-- One or more items up to the end of their array. -/
def parseItems : Nat → List Char → Option (List Json × List Char)
  | 0, _ => none
  | steps + 1, text => do
    let (item, rest) ← parseValue steps text
    match skipSpace rest with
    | ',' :: more =>
      let (items, after) ← parseItems steps more
      some (item :: items, after)
    | ']' :: after => some ([item], after)
    | _ => none

/-- One or more members up to the end of their object. -/
def parseMembers : Nat → List Char → Option (List (Option String × Json) × List Char)
  | 0, _ => none
  | steps + 1, text => do
    let (name, rest) ←
      match skipSpace text with
      | '"' :: literal => scanString literal
      | _ => none
    let (value, rest) ←
      match skipSpace rest with
      | ':' :: inside => parseValue steps inside
      | _ => none
    match skipSpace rest with
    | ',' :: more =>
      let (members, after) ← parseMembers steps more
      some ((name, value) :: members, after)
    | '}' :: after => some ([(name, value)], after)
    | _ => none

end

/-- The value of a sequence of characters. -/
def parseChars (text : List Char) : Option Json := do
  let (value, rest) ← parseValue (2 * text.length + 1) text
  if (skipSpace rest).isEmpty then some value else none

/-- The value of a JSON text. -/
def parse (text : String) : Option Json :=
  parseChars text.toList

end ConstraintFacets.Json
