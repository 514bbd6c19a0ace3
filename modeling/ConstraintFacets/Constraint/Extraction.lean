import ConstraintFacets.Constraint.Reading
import ConstraintFacets.Declaration
import ConstraintFacets.Groups

/-! # The constraints of a declaration

Of every kind the first annotation on a declaration counts, if it is active.
Constraints are collected in the order of their kinds; a value that must be null
has no other constraint (`ConstraintFacets.Declaration.constraints`). A value is
required also when one of its annotations is declared with the annotation for
that, or with an annotation that is
(`ConstraintFacets.Declaration.isRequired`).
-/

namespace ConstraintFacets

namespace Declaration

/-- The annotation of a kind: the first one, if it is active. -/
def active? (declaration : Declaration) (kind : ConstraintKind) (filter : GroupFilter) :
    Option AnnotationUse :=
  (declaration.find? kind.annotationType).filter filter.isActive

/-- The constraint of a kind, read from its annotation on a declaration. -/
def readConstraint (declaration : Declaration) (kind : ConstraintKind)
    (use : AnnotationUse) : Except AnnotationError Constraint :=
  match kind.read use with
  | .ok constraint => .ok constraint
  | .error error => .error
    { fault := error.fault
      annotationType := some use.type
      attributeName := some error.name
      declaration := some declaration.name }

/-- The constraints of the given kinds, in the order of the kinds. -/
def constraintsOf (declaration : Declaration) (filter : GroupFilter) :
    List ConstraintKind → Except AnnotationError (List Constraint)
  | [] => .ok []
  | kind :: rest =>
    match declaration.active? kind filter with
    | none => declaration.constraintsOf filter rest
    | some use => do
      let constraint ← declaration.readConstraint kind use
      let others ← declaration.constraintsOf filter rest
      .ok (constraint :: others)

/-- The constraints of a declaration. If it must be null, nothing else is looked
at. -/
def constraints (declaration : Declaration) (filter : GroupFilter) :
    Except AnnotationError (List Constraint) :=
  match declaration.active? .null filter with
  | some _ => .ok [.null]
  | none => declaration.constraintsOf filter ConstraintKind.all

/-- How far below the types of its annotations a declaration is searched for
the annotation that makes it required. -/
def metaAnnotationDepth : Nat := 1

/-- Whether a declaration is required by itself. -/
def isRequiredDirectly (declaration : Declaration) (filter : GroupFilter) : Bool :=
  (declaration.active? .notNull filter).isSome

/-- The declarations of the types of the annotations on a declaration, where they
are known. -/
def annotationTypes (declaration : Declaration) : List AnnotationType :=
  declaration.annotations.filterMap AnnotationUse.definition

/-- Whether a declaration is required by itself, by the types of its annotations,
or by what is found on them down to a depth. -/
def isRequiredWithin (filter : GroupFilter) : Nat → Declaration → Bool
  | 0, declaration => declaration.isRequiredDirectly filter ||
      declaration.annotationTypes.any fun type => type.toDeclaration.isRequiredDirectly filter
  | depth + 1, declaration => declaration.isRequiredDirectly filter ||
      declaration.annotationTypes.any fun type =>
        isRequiredWithin filter depth type.toDeclaration

/-- Whether a declaration is required. -/
def isRequired (declaration : Declaration) (filter : GroupFilter) : Bool :=
  isRequiredWithin filter metaAnnotationDepth declaration

/-- Whether a declaration has constraints: it is known to be required, or one of
its active annotations is from the package of the standard ones. -/
def hasConstraints (declaration : Declaration) (required : Bool) (filter : GroupFilter) : Bool :=
  required || declaration.annotations.any fun use =>
    use.package? = some constraintsPackage && filter.isActive use

end Declaration

/-- The constraints to describe when a value is known to be required: that it is
required comes first, unless it is among the constraints already. -/
def withRequired (required : Bool) (constraints : List Constraint) : List Constraint :=
  if required && !constraints.any fun constraint => constraint.kind = .notNull then
    .notNull :: constraints
  else constraints

/-- The description of a list of constraints, if there are any. -/
def describeAll (constraints : List Constraint) : Option String :=
  if constraints.isEmpty then none
  else some (String.intercalate ", " (constraints.map Constraint.description))

/-- The description of the constraints of a declaration, if there are any. -/
def Declaration.describe (declaration : Declaration) (required : Bool) (filter : GroupFilter) :
    Except AnnotationError (Option String) := do
  let constraints ← declaration.constraints filter
  .ok (describeAll (withRequired required constraints))

end ConstraintFacets
