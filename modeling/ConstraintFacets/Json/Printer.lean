import ConstraintFacets.Json.Basic

/-! # Writing JSON

A value is written compactly, without any blanks
(`ConstraintFacets.Json.compact`), or spread over lines with two blanks a level
(`ConstraintFacets.Json.pretty`). In strings the quote, the backslash and the
control characters are escaped, with short escapes where JSON has them, and all
other characters stand for themselves.
-/

namespace ConstraintFacets.Json

/-- The lower-case hexadecimal digit of a number below sixteen. -/
def hexDigit (value : Nat) : Char :=
  Nat.digitChar value

/-- The form of a character inside a string literal. -/
def escape (c : Char) : List Char :=
  if c = '"' then ['\\', '"']
  else if c = '\\' then ['\\', '\\']
  else if c = '\x08' then ['\\', 'b']
  else if c = '\x0c' then ['\\', 'f']
  else if c = '\n' then ['\\', 'n']
  else if c = '\r' then ['\\', 'r']
  else if c = '\t' then ['\\', 't']
  else if c.toNat < 0x20 then
    ['\\', 'u', '0', '0', hexDigit (c.toNat / 16), hexDigit (c.toNat % 16)]
  else [c]

/-- The literal of a text. A value that denotes no text is written as the escape
of half a surrogate pair. -/
def quote : Option String → List Char
  | some text => '"' :: text.toList.flatMap escape ++ ['"']
  | none => ['"', '\\', 'u', 'd', '8', '0', '0', '"']

/-- A minus sign, if there is one. -/
def renderSign (negative : Bool) : List Char :=
  if negative then ['-'] else []

/-- A point and the digits after it, if there are any. -/
def renderFraction (digits : List (Fin 10)) : List Char :=
  if digits = [] then [] else '.' :: digits.map Integer.digitChar

/-- An exponent with its mark, if there is one. -/
def renderExponent : Option Int → List Char
  | none => []
  | some exponent => 'e' :: Integer.render exponent

/-- The characters of a number. -/
def renderNumber (number : JsonNumber) : List Char :=
  renderSign number.negative ++ Integer.digits number.integral ++
    renderFraction number.fraction ++ renderExponent number.exponent

/-- The two truth values by their names. -/
def renderBool (value : Bool) : List Char :=
  if value then ['t', 'r', 'u', 'e'] else ['f', 'a', 'l', 's', 'e']

mutual

/-- The characters of a value, without blanks. -/
def render : Json → List Char
  | .null => ['n', 'u', 'l', 'l']
  | .bool value => renderBool value
  | .number value => renderNumber value
  | .string text => quote text
  | .array items => '[' :: renderItems items
  | .object members => '{' :: renderMembers members

/-- Items with commas between them, up to the end of their array. -/
def renderItems : List Json → List Char
  | [] => [']']
  | item :: rest => render item ++ renderMoreItems rest

/-- The items behind the first one. -/
def renderMoreItems : List Json → List Char
  | [] => [']']
  | item :: rest => ',' :: render item ++ renderMoreItems rest

/-- Members with commas between them, up to the end of their object. -/
def renderMembers : List (Option String × Json) → List Char
  | [] => ['}']
  | (name, value) :: rest => quote name ++ ':' :: render value ++ renderMoreMembers rest

/-- The members behind the first one. -/
def renderMoreMembers : List (Option String × Json) → List Char
  | [] => ['}']
  | (name, value) :: rest =>
    ',' :: quote name ++ ':' :: render value ++ renderMoreMembers rest

end

/-- The compact text of a value. -/
def compact (value : Json) : String :=
  String.ofList (render value)

/-- A line break with the indentation of a level. -/
def lineBreak (level : Nat) : List Char :=
  '\n' :: List.replicate (2 * level) ' '

mutual

/-- The characters of a value whose items and members stand on lines of their
own. An empty container has no line breaks. -/
def spread (level : Nat) : Json → List Char
  | .null => ['n', 'u', 'l', 'l']
  | .bool value => renderBool value
  | .number value => renderNumber value
  | .string text => quote text
  | .array [] => ['[', ']']
  | .array (item :: rest) => '[' :: lineBreak (level + 1) ++ spread (level + 1) item ++
      spreadItems (level + 1) rest ++ lineBreak level ++ [']']
  | .object [] => ['{', '}']
  | .object ((name, value) :: rest) => '{' :: lineBreak (level + 1) ++ quote name ++
      [':', ' '] ++ spread (level + 1) value ++ spreadMembers (level + 1) rest ++
      lineBreak level ++ ['}']

/-- The items behind the first one, each on a line of its own. -/
def spreadItems (level : Nat) : List Json → List Char
  | [] => []
  | item :: rest => ',' :: lineBreak level ++ spread level item ++ spreadItems level rest

/-- The members behind the first one, each on a line of its own. -/
def spreadMembers (level : Nat) : List (Option String × Json) → List Char
  | [] => []
  | (name, value) :: rest => ',' :: lineBreak level ++ quote name ++ [':', ' '] ++
      spread level value ++ spreadMembers level rest

end

/-- The text of a value over several lines. -/
def pretty (value : Json) : String :=
  String.ofList (spread 0 value)

end ConstraintFacets.Json
