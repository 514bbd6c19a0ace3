/-! # Numbers in words and in text

Attribute values are 64-bit words, and some constraints keep 32-bit words. This
module says which integers fit such a word and how an integer is written: in
decimal, with a minus sign if it is negative, and without leading zeros.

A decimal literal is the lexical form of an arbitrary-precision number: an optional
sign, digits with an optional point among or before them, and an optional exponent.
Neither magnitude nor precision is limited, and nothing may stand around the
literal (`ConstraintFacets.DecimalLiteral.isLiteral`).
-/

namespace ConstraintFacets

namespace Integer

/-- The 64-bit word of an integer, if the integer fits one. -/
def toInt64? (value : Int) : Option Int64 :=
  if Int64.minValue.toInt ≤ value ∧ value ≤ Int64.maxValue.toInt then some (Int64.ofInt value)
  else none

/-- The 32-bit word of an integer, if the integer fits one. -/
def toInt32? (value : Int) : Option Int32 :=
  if Int32.minValue.toInt ≤ value ∧ value ≤ Int32.maxValue.toInt then some (Int32.ofInt value)
  else none

/-- The decimal digits of a natural number. -/
def digits (value : Nat) : List Char :=
  Nat.toDigits 10 value

/-- The value of a decimal digit. -/
def digitValue (c : Char) : Fin 10 :=
  Fin.ofNat 10 (c.toNat - '0'.toNat)

/-- The decimal digit of a value. -/
def digitChar (value : Fin 10) : Char :=
  Nat.digitChar value

/-- The natural number that a run of decimal digits stands for. -/
def ofDigits (text : List Char) : Nat :=
  Nat.ofDigitChars 10 text 0

/-- The characters of an integer in decimal. -/
def render : Int → List Char
  | .ofNat value => digits value
  | .negSucc value => '-' :: digits (value + 1)

/-- The decimal text of an integer. -/
def text (value : Int) : String :=
  String.ofList (render value)

@[simp] theorem digitValue_digitChar (value : Fin 10) : digitValue (digitChar value) = value := by
  revert value
  decide

@[simp] theorem isDigit_digitChar (value : Fin 10) : (digitChar value).isDigit = true := by
  revert value
  decide

/-- Reading the digits of a number gives the number back. -/
theorem ofDigits_digits (value : Nat) : ofDigits (digits value) = value :=
  Nat.ofDigitChars_toDigits (by decide) (by decide)

/-- Every word is the word of the integer it stands for. -/
theorem toInt64?_toInt (word : Int64) : toInt64? word.toInt = some word := by
  unfold toInt64?
  rw [if_pos ⟨word.minValue_le_toInt, word.toInt_le⟩, Int64.ofInt_toInt]

end Integer

namespace DecimalLiteral

/-- Whether a text is one or more digits. -/
def isDigits (text : List Char) : Bool :=
  !text.isEmpty && text.all Char.isDigit

/-- A text without one leading sign. -/
def dropSign : List Char → List Char
  | [] => []
  | c :: rest => if c = '+' ∨ c = '-' then rest else c :: rest

/-- Whether a text is a possible end of a literal: nothing, or a marked
exponent. -/
def isExponent : List Char → Bool
  | [] => true
  | c :: rest => (c == 'e' || c == 'E') && isDigits (dropSign rest)

/-- Whether an unsigned text starts with digits and an optional fraction and
ends in an optional exponent. A point may come first only if a digit follows. -/
def isUnsigned (text : List Char) : Bool :=
  let whole := text.takeWhile Char.isDigit
  match text.dropWhile Char.isDigit with
  | '.' :: rest =>
    let fraction := rest.takeWhile Char.isDigit
    !(whole.isEmpty && fraction.isEmpty) && isExponent (rest.dropWhile Char.isDigit)
  | rest => !whole.isEmpty && isExponent rest

/-- Whether a text is a decimal literal. -/
def isLiteral (text : List Char) : Bool :=
  isUnsigned (dropSign text)

end DecimalLiteral

end ConstraintFacets
