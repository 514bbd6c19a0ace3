import ConstraintFacets.Groups
import ConstraintFacets.Json.Record

/-! # Settings

Settings say which validation groups are ignored, on which types upper and lower
bounds limit the length, and whether facets that a type does not admit are
reported. They are read from JSON; what is not given has its default.
-/

namespace ConstraintFacets

/-- The types on which a bound limits the length of a value instead of the value
itself. -/
inductive LengthPolicy where
  /-- Only strings and normalized strings. -/
  | strict
  /-- All types of strings, names and tokens. -/
  | stringLike
deriving DecidableEq

namespace LengthPolicy

/-- The name of a policy. -/
def name : LengthPolicy → String
  | strict => "strict"
  | stringLike => "string_like"

/-- The policy with a given name. -/
def ofName? (name : String) : Option LengthPolicy :=
  [strict, stringLike].find? fun policy => policy.name = name

end LengthPolicy

/-- The settings of a run. -/
structure Settings where
  /-- The groups whose constraints are left out. -/
  ignoredGroups : NameSet := ∅
  /-- How upper and lower bounds are understood. -/
  lengthPolicy : LengthPolicy := .strict
  /-- Whether facets that are not admitted are reported. -/
  reportInapplicable : Bool := true
deriving DecidableEq

namespace Settings

/-- Settings that ignore one more group. -/
def ignoring (settings : Settings) (group : String) : Settings :=
  { settings with ignoredGroups := settings.ignoredGroups.insert group }

/-- Settings with another policy. -/
def withPolicy (settings : Settings) (policy : LengthPolicy) : Settings :=
  { settings with lengthPolicy := policy }

/-- Settings that report facets that are not admitted, or do not. -/
def reporting (settings : Settings) (report : Bool) : Settings :=
  { settings with reportInapplicable := report }

/-- The filter for the groups that are ignored. -/
def filter (settings : Settings) : GroupFilter :=
  ⟨settings.ignoredGroups⟩

/-- The JSON form of settings. -/
def toJson (settings : Settings) : Json :=
  .record
    [("ignored_validation_groups", .array (settings.ignoredGroups.names.map .text)),
     ("length_bound_policy", .text settings.lengthPolicy.name),
     ("report_inapplicable_facets", .bool settings.reportInapplicable)]

/-- Reads settings. -/
def read? : Nat → Json → Option Settings
  | 0, _ => none
  | room + 1, json => do
    let fields ← json.fields?
      ["ignored_validation_groups", "length_bound_policy", "report_inapplicable_facets"]
    let groups ← Json.fieldOr fields "ignored_validation_groups" []
      (Json.listOf? (fun _ => Json.text?) room)
    let lengthPolicy ← Json.fieldOr fields "length_bound_policy" .strict fun policy =>
      (Json.choice? .inPlace room policy).bind LengthPolicy.ofName?
    let reportInapplicable ← Json.fieldOr fields "report_inapplicable_facets" true Json.bool?
    some { ignoredGroups := NameSet.ofList groups, lengthPolicy, reportInapplicable }

/-- The settings that a JSON document describes. -/
def ofJson? (json : Json) : Option Settings :=
  read? Json.nestingLimit json

end Settings

end ConstraintFacets
