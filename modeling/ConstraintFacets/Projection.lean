import ConstraintFacets.Constraint.Extraction
import ConstraintFacets.SchemaType
import ConstraintFacets.Settings

/-! # From constraints to facets

Constraints become facets of a base type (`ConstraintFacets.Constraint.facets`).
Upper and lower bounds limit the length on types of strings and the value on all
others. Restricting a type by constraints adds one step to its chain of
restrictions, or none if no facet comes out (`ConstraintFacets.SchemaType.restrict`).
-/

namespace ConstraintFacets

/-- Whether bounds on a base limit the length. They do so only on built-in types,
not on specified types or restrictions. -/
def LengthPolicy.boundsLength (policy : LengthPolicy) (base : SchemaType) : Bool :=
  match base.builtin?, policy with
  | none, _ => false
  | some type, .strict => type = .string || type = .normalizedString
  | some type, .stringLike => type.isStringLike

/-- The facets of a constraint. Constraints on presence and dates have none, and
a least size of zero is left out. -/
def Constraint.facets (boundsLength : Bool) : Constraint → List Restriction
  | isFalse => [⟨.pattern, "false"⟩]
  | isTrue => [⟨.pattern, "true"⟩]
  | decimalMax value inclusive => [⟨if inclusive then .maxInclusive else .maxExclusive, value⟩]
  | decimalMin value inclusive => [⟨if inclusive then .minInclusive else .minExclusive, value⟩]
  | digits integer fraction =>
    [⟨.totalDigits, Integer.text (integer.toInt + fraction.toInt)⟩,
     ⟨.fractionDigits, Integer.text fraction.toInt⟩]
  | max value =>
    [⟨if boundsLength then .maxLength else .maxInclusive, Integer.text value.toInt⟩]
  | min value =>
    [⟨if boundsLength then .minLength else .minInclusive, Integer.text value.toInt⟩]
  | regexp pattern => [⟨.pattern, pattern⟩]
  | size most least =>
    ⟨.maxLength, Integer.text most.toInt⟩ ::
      (if 0 < least.toInt then [⟨.minLength, Integer.text least.toInt⟩] else [])
  | null | notNull | future | past => []

namespace SchemaType

/-- The facets of a list of constraints on a base, in the order of the
constraints. -/
def project (base : SchemaType) (constraints : List Constraint) (policy : LengthPolicy) :
    List Restriction :=
  constraints.flatMap (Constraint.facets (policy.boundsLength base))

/-- A base restricted by constraints. -/
def restrict (base : SchemaType) (constraints : List Constraint) (policy : LengthPolicy) :
    SchemaType :=
  base.narrow (base.project constraints policy)

/-- A base restricted by the constraints of a declaration. -/
def decorate (base : SchemaType) (declaration : Declaration) (settings : Settings) :
    Except AnnotationError SchemaType := do
  let constraints ← declaration.constraints settings.filter
  .ok (base.restrict constraints settings.lengthPolicy)

end SchemaType

end ConstraintFacets
