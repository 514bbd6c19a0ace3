import ConstraintFacets.Text.Numeral

/-! # JSON values

A JSON value as it stands in a text: members in their order, repeated names
included, and numbers by their digits. Whether a number can be held in some
machine format is not settled here but where the number is used
(`ConstraintFacets.JsonNumber.toInt?`, `ConstraintFacets.JsonNumber.isFinite`).
A string literal may be well formed and still denote no text, when an escape
names half of a surrogate pair without its other half; such a literal is held as
`none`.

A number that is kept without knowing its use is kept in double precision. Its
first digits form a 64-bit significand; digits before the point that no longer
fit only raise the exponent, and digits behind it are dropped. The significand
and the power of ten are each taken to the nearest double and multiplied, and
the number is out of range if that product is.
-/

namespace ConstraintFacets

/-- A number by its digits. A number without a point has no fraction digits. -/
structure JsonNumber where
  /-- Whether a minus sign comes first. -/
  negative : Bool := false
  /-- The number before the point, which has no leading zeros. -/
  integral : Nat
  /-- The digits after the point. -/
  fraction : List (Fin 10) := []
  /-- The exponent, if one is written. -/
  exponent : Option Int := none
deriving DecidableEq

/-- A JSON value. -/
inductive Json where
  | null
  | bool (value : Bool)
  | number (value : JsonNumber)
  | string (text : Option String)
  | array (items : List Json)
  | object (members : List (Option String × Json))
deriving Inhabited

namespace JsonNumber

/-- The number that stands for an integer. -/
def ofInt : Int → JsonNumber
  | .ofNat value => { integral := value }
  | .negSucc value => { negative := true, integral := value + 1 }

/-- The integer that a number stands for. A number with a fraction or an
exponent is no integer, whatever its value, and neither is `-0`. -/
def toInt? (number : JsonNumber) : Option Int :=
  if number.fraction = [] ∧ number.exponent = none then
    if number.negative then
      if number.integral = 0 then none else some (-(number.integral : Int))
    else some number.integral
  else none

@[simp] theorem toInt?_ofInt (value : Int) : (ofInt value).toInt? = some value := by
  cases value with
  | ofNat value => simp [ofInt, toInt?]
  | negSucc value => simp [ofInt, toInt?, Int.negSucc_eq]

/-- A significand with an exponent of ten. -/
structure Scaled where
  /-- The digits kept, as a number. -/
  significand : Nat
  /-- The power of ten by which they are to be multiplied. -/
  exponent : Int
deriving DecidableEq

/-- The significand with one more digit, if that fits 64 bits. -/
def withDigit? (significand : Nat) (digit : Fin 10) : Option Nat :=
  let longer := significand * 10 + digit
  if longer < UInt64.size then some longer else none

/-- Takes digits before the point into a significand. After the first one that
does not fit, every digit counts in the exponent. -/
def scaleIntegral (significand : Nat) : List (Fin 10) → Scaled
  | [] => ⟨significand, 0⟩
  | digit :: rest =>
    match withDigit? significand digit with
    | some longer => scaleIntegral longer rest
    | none => ⟨significand, rest.length + 1⟩

/-- Takes digits behind the point into a significand, up to the first one that
does not fit. -/
def scaleFraction (scaled : Scaled) : List (Fin 10) → Scaled
  | [] => scaled
  | digit :: rest =>
    match withDigit? scaled.significand digit with
    | some longer => scaleFraction ⟨longer, scaled.exponent - 1⟩ rest
    | none => scaled

/-- The significand and the exponent of a number. -/
def scaled (number : JsonNumber) : Scaled :=
  let digits := (Integer.digits number.integral).map Integer.digitValue
  let whole := scaleFraction (scaleIntegral 0 digits) number.fraction
  ⟨whole.significand, whole.exponent + number.exponent.getD 0⟩

/-- The natural number with 53 significant bits that is nearest to a given one;
of two that are equally near, the one with an even last bit. -/
def nearestDouble (value : Nat) : Nat :=
  let unit := 1 <<< (value.log2 + 1 - 53)
  let lower := value / unit
  let rest := value % unit
  if unit < 2 * rest ∨ (2 * rest = unit ∧ lower % 2 = 1) then (lower + 1) * unit else lower * unit

/-- Whether a number lies in the range of double precision. -/
def isFinite (number : JsonNumber) : Bool :=
  let scaled := number.scaled
  if scaled.exponent < 0 ∨ scaled.significand = 0 then true
  else if 308 < scaled.exponent then false
  else nearestDouble scaled.significand * nearestDouble (Nat.pow 10 scaled.exponent.toNat) <
    1 <<< 1024 - 1 <<< 970

end JsonNumber

namespace Json

/-- The value of a text. -/
def text (value : String) : Json :=
  .string (some value)

/-- The value of an integer. -/
def ofInt (value : Int) : Json :=
  .number (.ofInt value)

/-- The object with the given members. -/
def record (members : List (String × Json)) : Json :=
  .object (members.map fun member => (some member.1, member.2))

/-- The text that a string value denotes. -/
def text? : Json → Option String
  | .string text => text
  | _ => none

/-- The truth value that a value stands for. -/
def bool? : Json → Option Bool
  | .bool value => some value
  | _ => none

/-- The integer that a value stands for. -/
def int? : Json → Option Int
  | .number value => value.toInt?
  | _ => none

/-- The items of an array. -/
def items? : Json → Option (List Json)
  | .array items => some items
  | _ => none

/-- The members of an object. -/
def members? : Json → Option (List (Option String × Json))
  | .object members => some members
  | _ => none

@[simp] theorem text?_text (value : String) : (text value).text? = some value := rfl

@[simp] theorem bool?_bool (value : Bool) : (Json.bool value).bool? = some value := rfl

@[simp] theorem int?_ofInt (value : Int) : (ofInt value).int? = some value :=
  JsonNumber.toInt?_ofInt value

mutual

/-- How many containers stand inside each other in a value. -/
def depth : Json → Nat
  | .null => 0
  | .bool _ => 0
  | .number _ => 0
  | .string _ => 0
  | .array items => depthOfItems items + 1
  | .object members => depthOfMembers members + 1

/-- The greatest depth among items. -/
def depthOfItems : List Json → Nat
  | [] => 0
  | item :: rest => max (depth item) (depthOfItems rest)

/-- The greatest depth among the values of members. -/
def depthOfMembers : List (Option String × Json) → Nat
  | [] => 0
  | (_, value) :: rest => max (depth value) (depthOfMembers rest)

end

end Json

end ConstraintFacets
