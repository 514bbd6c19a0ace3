/-! # Kinds of constraints

The standard validation annotations, each of one kind. The kinds have a fixed
order (`ConstraintFacets.ConstraintKind.all`), in which constraints are
collected.
-/

namespace ConstraintFacets

/-- The kind of a constraint, without its parameters. -/
inductive ConstraintKind where
  | null
  | notNull
  | isFalse
  | isTrue
  | decimalMax
  | decimalMin
  | digits
  | future
  | max
  | min
  | past
  | regexp
  | size
deriving DecidableEq

/-- The package of the standard validation annotations. -/
def constraintsPackage : String := "javax.validation.constraints"

namespace ConstraintKind

/-- All kinds, in their order. -/
def all : List ConstraintKind :=
  [null, notNull, isFalse, isTrue, decimalMax, decimalMin, digits, future, max, min, past,
   regexp, size]

/-- The place of a kind in the order of kinds. -/
def rank : ConstraintKind → Nat
  | null => 0
  | notNull => 1
  | isFalse => 2
  | isTrue => 3
  | decimalMax => 4
  | decimalMin => 5
  | digits => 6
  | future => 7
  | max => 8
  | min => 9
  | past => 10
  | regexp => 11
  | size => 12

instance : LE ConstraintKind where
  le first second := first.rank ≤ second.rank

instance : LT ConstraintKind where
  lt first second := first.rank < second.rank

instance (first second : ConstraintKind) : Decidable (first ≤ second) :=
  inferInstanceAs (Decidable (first.rank ≤ second.rank))

instance (first second : ConstraintKind) : Decidable (first < second) :=
  inferInstanceAs (Decidable (first.rank < second.rank))

/-- The name of a kind. -/
def name : ConstraintKind → String
  | null => "Null"
  | notNull => "NotNull"
  | isFalse => "False"
  | isTrue => "True"
  | decimalMax => "DecimalMax"
  | decimalMin => "DecimalMin"
  | digits => "Digits"
  | future => "Future"
  | max => "Max"
  | min => "Min"
  | past => "Past"
  | regexp => "Regexp"
  | size => "Size"

/-- The annotation type of a kind. -/
def annotationType : ConstraintKind → String
  | null => "javax.validation.constraints.Null"
  | notNull => "javax.validation.constraints.NotNull"
  | isFalse => "javax.validation.constraints.AssertFalse"
  | isTrue => "javax.validation.constraints.AssertTrue"
  | decimalMax => "javax.validation.constraints.DecimalMax"
  | decimalMin => "javax.validation.constraints.DecimalMin"
  | digits => "javax.validation.constraints.Digits"
  | future => "javax.validation.constraints.Future"
  | max => "javax.validation.constraints.Max"
  | min => "javax.validation.constraints.Min"
  | past => "javax.validation.constraints.Past"
  | regexp => "javax.validation.constraints.Pattern"
  | size => "javax.validation.constraints.Size"

/-- The kind of an annotation type, if it is a standard one. -/
def ofAnnotationType? (type : String) : Option ConstraintKind :=
  all.find? fun kind => kind.annotationType = type

/-- The kind with a given name. -/
def ofName? (name : String) : Option ConstraintKind :=
  all.find? fun kind => kind.name = name

/-- Every kind is listed. -/
theorem mem_all (kind : ConstraintKind) : kind ∈ all := by
  cases kind <;> decide

/-- The list of kinds increases strictly. -/
theorem pairwise_all : all.Pairwise (· < ·) := by
  decide

end ConstraintKind

end ConstraintFacets
