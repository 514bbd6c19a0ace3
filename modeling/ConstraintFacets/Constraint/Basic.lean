import ConstraintFacets.Constraint.Kind
import ConstraintFacets.Json.Basic

/-! # Constraints

A constraint is a validation rule with the parameters of its annotation. Every
constraint has a kind, its parameters as texts, a description in words, and a
JSON form.
-/

namespace ConstraintFacets

/-- A validation rule. -/
inductive Constraint where
  | null
  | notNull
  | isFalse
  | isTrue
  /-- An upper decimal bound as written, and whether the bound is allowed. -/
  | decimalMax (value : String) (inclusive : Bool)
  /-- A lower decimal bound as written, and whether the bound is allowed. -/
  | decimalMin (value : String) (inclusive : Bool)
  /-- The most digits before and behind the point. -/
  | digits (integer fraction : Int32)
  | future
  | max (value : Int64)
  | min (value : Int64)
  | past
  | regexp (pattern : String)
  /-- The greatest and the least size. -/
  | size (most least : Int32)
deriving DecidableEq

namespace Constraint

/-- The kind of a constraint. -/
def kind : Constraint → ConstraintKind
  | null => .null
  | notNull => .notNull
  | isFalse => .isFalse
  | isTrue => .isTrue
  | decimalMax _ _ => .decimalMax
  | decimalMin _ _ => .decimalMin
  | digits _ _ => .digits
  | future => .future
  | max _ => .max
  | min _ => .min
  | past => .past
  | regexp _ => .regexp
  | size _ _ => .size

/-- A truth value by its name. -/
def flagText (value : Bool) : String :=
  if value then "true" else "false"

/-- The parameters, as texts. -/
def params : Constraint → List String
  | decimalMax value inclusive => [value, flagText inclusive]
  | decimalMin value inclusive => [value, flagText inclusive]
  | digits integer fraction => [Integer.text integer.toInt, Integer.text fraction.toInt]
  | max value => [Integer.text value.toInt]
  | min value => [Integer.text value.toInt]
  | regexp pattern => [pattern]
  | size most least => [Integer.text most.toInt, Integer.text least.toInt]
  | _ => []

/-- The remark on a decimal bound that is not allowed itself. -/
def exclusiveRemark (inclusive : Bool) : String :=
  if inclusive then "" else " (exclusive)"

/-- The description of a constraint in words. -/
def description : Constraint → String
  | null => "must be null"
  | notNull => "required"
  | isFalse => "must be \"false\""
  | isTrue => "must be \"true\""
  | decimalMax value inclusive => "max: " ++ value ++ exclusiveRemark inclusive
  | decimalMin value inclusive => "min: " ++ value ++ exclusiveRemark inclusive
  | digits integer fraction =>
    "max digits: " ++ Integer.text integer.toInt ++ " (integer), " ++
      Integer.text fraction.toInt ++ " (fraction)"
  | future => "future date"
  | max value => "max: " ++ Integer.text value.toInt
  | min value => "min: " ++ Integer.text value.toInt
  | past => "past date"
  | regexp pattern => "regex: " ++ pattern
  | size most least =>
    "max size: " ++ Integer.text most.toInt ++ ", min size: " ++ Integer.text least.toInt

/-- The members for the parameters of a constraint. -/
def paramMembers : Constraint → List (String × Json)
  | decimalMax value inclusive => [("value", .text value), ("inclusive", .bool inclusive)]
  | decimalMin value inclusive => [("value", .text value), ("inclusive", .bool inclusive)]
  | digits integer fraction =>
    [("integer", .ofInt integer.toInt), ("fraction", .ofInt fraction.toInt)]
  | max value => [("value", .ofInt value.toInt)]
  | min value => [("value", .ofInt value.toInt)]
  | regexp pattern => [("pattern", .text pattern)]
  | size most least => [("max", .ofInt most.toInt), ("min", .ofInt least.toInt)]
  | _ => []

/-- The JSON form of a constraint: its kind, then its parameters. -/
def toJson (constraint : Constraint) : Json :=
  .record (("kind", .text constraint.kind.name) :: constraint.paramMembers)

end Constraint

end ConstraintFacets
