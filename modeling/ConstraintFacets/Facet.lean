import ConstraintFacets.Json.Record

/-! # Constraining facets

The facets by which XML Schema narrows a simple type, the sets of facets that
groups of types admit, and restrictions, which are facets with values. Whether a
facet is admitted by the type that it restricts is not settled here.
-/

namespace ConstraintFacets

/-- A constraining facet. -/
inductive Facet where
  | length
  | minLength
  | maxLength
  | pattern
  | enumeration
  | whiteSpace
  | totalDigits
  | fractionDigits
  | maxInclusive
  | maxExclusive
  | minInclusive
  | minExclusive
deriving DecidableEq

namespace Facet

/-- All facets, in their order. -/
def all : List Facet :=
  [length, minLength, maxLength, pattern, enumeration, whiteSpace, totalDigits,
   fractionDigits, maxInclusive, maxExclusive, minInclusive, minExclusive]

/-- The name of a facet in schema documents. -/
def name : Facet → String
  | length => "length"
  | minLength => "minLength"
  | maxLength => "maxLength"
  | pattern => "pattern"
  | enumeration => "enumeration"
  | whiteSpace => "whiteSpace"
  | totalDigits => "totalDigits"
  | fractionDigits => "fractionDigits"
  | maxInclusive => "maxInclusive"
  | maxExclusive => "maxExclusive"
  | minInclusive => "minInclusive"
  | minExclusive => "minExclusive"

/-- The facet with a given name. -/
def ofName? (name : String) : Option Facet :=
  all.find? fun facet => facet.name = name

theorem ofName?_name (facet : Facet) : ofName? facet.name = some facet := by
  cases facet <;> decide

/-- The facets of string, binary and name types. -/
def ofLengths : List Facet :=
  [length, minLength, maxLength, pattern, enumeration, whiteSpace]

/-- The facets of types with an order: numbers, durations, dates and times. -/
def ofOrder : List Facet :=
  [pattern, enumeration, whiteSpace, maxInclusive, maxExclusive, minInclusive, minExclusive]

/-- The facets of decimal and integer types. -/
def ofDecimals : List Facet :=
  totalDigits :: fractionDigits :: ofOrder

/-- The facets of truth values. -/
def ofTruthValues : List Facet :=
  [pattern]

end Facet

/-- A facet with its value. -/
structure Restriction where
  /-- The facet. -/
  facet : Facet
  /-- The value, as it is written in a schema. -/
  value : String
deriving DecidableEq

namespace Restriction

/-- A restriction as an equation. -/
def text (restriction : Restriction) : String :=
  restriction.facet.name ++ "=" ++ restriction.value

/-- The JSON form of a restriction. -/
def toJson (restriction : Restriction) : Json :=
  .record [("facet", .text restriction.facet.name), ("value", .text restriction.value)]

/-- The restriction that a JSON document describes. -/
def ofJson? (json : Json) : Option Restriction := do
  let fields ← json.fields? ["facet", "value"]
  let facet ← Facet.ofName? (← Json.choice? .inPlace (Json.nestingLimit - 1)
    (← fields.lookup "facet"))
  let value ← (← fields.lookup "value").text?
  some { facet, value }

end Restriction

end ConstraintFacets
