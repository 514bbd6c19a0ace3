import ConstraintFacets.Projection
import ConstraintFacets.Proofs.Extraction.Requirement

/-! # Declarations without constraints

A declaration has no constraints if and only if it shows no kind of them
(`ConstraintFacets.Declaration.constraints_eq_nil_iff`). Asking whether there are any
goes by the packages of the annotations instead. If the answer is no, there are none,
unless an annotation for a constraint comes with a declaration of its type in another
package (`ConstraintFacets.Declaration.constraints_eq_nil_of_not_hasConstraints`).
If the groups of all annotations are ignored, there are none and nothing is restricted;
what is required then is required by the types of the annotations
(`ConstraintFacets.Declaration.suppressed_answers`).
-/

namespace ConstraintFacets

/-- The annotation types of all kinds are in the package of the standard ones. -/
theorem ConstraintKind.package?_annotationType (kind : ConstraintKind) :
    TypeName.package? kind.annotationType = some constraintsPackage := by
  cases kind <;> rfl

namespace Declaration

variable {declaration : Declaration} {filter : GroupFilter} {kind : ConstraintKind}
  {kinds : List ConstraintKind} {use : AnnotationUse}

/-- Where no kind is presented, nothing is collected. -/
theorem constraintsOf_eq_nil (absent : ∀ kind, ¬ declaration.Shows filter kind) :
    declaration.constraintsOf filter kinds = .ok [] := by
  induction kinds with
  | nil => rfl
  | cons kind rest ih =>
    have inactive : declaration.active? kind filter = none := by
      rw [← Option.not_isSome_iff_eq_none, isSome_active?_iff]
      exact absent kind
    rw [constraintsOf_cons_absent inactive, ih]

/-- There are no constraints, and no error, just if no kind is presented. -/
theorem constraints_eq_nil_iff :
    declaration.constraints filter = .ok [] ↔ ∀ kind, ¬ declaration.Shows filter kind := by
  constructor
  · intro collected kind shows
    rcases collects_or_null_of_constraints collected with ⟨_, impossible⟩ | ⟨_, collects⟩
    · cases impossible
    · exact List.not_mem_nil ((collects.complete kind).mpr shows)
  · intro absent
    rw [constraints_eq_constraintsOf (absent .null), constraintsOf_eq_nil absent]

/-- There is no description just if there are no constraints. -/
theorem describe_eq_none_iff :
    declaration.describe false filter = .ok none ↔ declaration.constraints filter = .ok [] := by
  rw [describe, bind_eq_ok_iff]
  constructor
  · rintro ⟨constraints, collected, nothing⟩
    cases constraints with
    | nil => exact collected
    | cons => cases nothing
  · exact fun collected => ⟨[], collected, rfl⟩

/-- A declaration has no constraints by its packages just if no annotation from the package of
the standard ones is active. -/
theorem hasConstraints_eq_false_iff :
    declaration.hasConstraints false filter = false ↔
      ∀ use ∈ declaration.annotations, use.package? = some constraintsPackage →
        filter.isActive use = false := by
  simp [hasConstraints]

theorem Presents.mem (presents : declaration.Presents filter kind use) :
    use ∈ declaration.annotations := by
  obtain ⟨⟨before, after, split, -⟩, -⟩ := presents
  simp [split]

theorem Presents.isActive (presents : declaration.Presents filter kind use) :
    filter.isActive use = true :=
  GroupFilter.isActive_iff.mpr presents.2.2

/-- An annotation by which a declaration presents a kind of constraint comes with a
declaration of its type, and that is not in the package of the standard ones. -/
def ShowsElsewhere (declaration : Declaration) (filter : GroupFilter) : Prop :=
  ∃ kind use type, declaration.Presents filter kind use ∧ use.definition = some type ∧
    type.package? ≠ some constraintsPackage

/-- What is presented without any active standard annotation comes with a declaration from
elsewhere. -/
theorem showsElsewhere_of_not_hasConstraints
    (unconstrained : declaration.hasConstraints false filter = false)
    (shows : declaration.Shows filter kind) : declaration.ShowsElsewhere filter := by
  obtain ⟨use, presents⟩ := shows
  have elsewhere : use.package? ≠ some constraintsPackage := by
    intro standard
    have inactive := hasConstraints_eq_false_iff.mp unconstrained use presents.mem standard
    exact absurd presents.isActive (by simp [inactive])
  cases declared : use.definition with
  | none =>
    have named : use.package? = TypeName.package? use.type := by
      rw [AnnotationUse.package?, declared]
    rw [named, presents.2.1, kind.package?_annotationType] at elsewhere
    exact absurd rfl elsewhere
  | some type =>
    have named : use.package? = type.package? := by rw [AnnotationUse.package?, declared]
    exact ⟨kind, use, type, presents, declared, named ▸ elsewhere⟩

/-- Nothing is presented from elsewhere if annotations come with the declarations of their own
types. -/
theorem not_showsElsewhere_of_own
    (own : ∀ use ∈ declaration.annotations, ∀ type, use.definition = some type →
      type.qualifiedName = use.type) : ¬ declaration.ShowsElsewhere filter := by
  rintro ⟨kind, use, type, presents, declared, elsewhere⟩
  apply elsewhere
  rw [AnnotationType.package?, own use presents.mem type declared, presents.2.1,
    kind.package?_annotationType]

/-- If asking for constraints says no, there are none just if every annotation for one
whose type is declared is declared in the package of the standard ones; so it is where
annotations come with the declarations of their own types. -/
theorem constraints_eq_nil_of_not_hasConstraints
    (unconstrained : declaration.hasConstraints false filter = false) :
    (declaration.constraints filter = .ok [] ↔ ¬ declaration.ShowsElsewhere filter) ∧
    (declaration.describe false filter = .ok none ↔ ¬ declaration.ShowsElsewhere filter) ∧
    ((∀ use ∈ declaration.annotations, ∀ type, use.definition = some type →
        type.qualifiedName = use.type) →
      declaration.constraints filter = .ok [] ∧ declaration.describe false filter = .ok none) := by
  have nothing : declaration.constraints filter = .ok [] ↔ ¬ declaration.ShowsElsewhere filter := by
    rw [constraints_eq_nil_iff]
    constructor
    · rintro absent ⟨kind, use, -, presents, -⟩
      exact absent kind ⟨use, presents⟩
    · intro here kind shows
      exact here (showsElsewhere_of_not_hasConstraints unconstrained shows)
  refine ⟨nothing, describe_eq_none_iff.trans nothing, fun own => ?_⟩
  have collected := nothing.mpr (not_showsElsewhere_of_own own)
  exact ⟨collected, describe_eq_none_iff.mpr collected⟩

/-- The filter that ignores drafts. -/
def withoutDrafts : GroupFilter :=
  .ignoring ["com.example.Draft"]

/-- A field with a standard annotation that is not active, and one from elsewhere. -/
def draftField : Declaration where
  name := "title"
  annotations := [
    { type := ConstraintKind.notNull.annotationType
      values := [("groups", .classLiteral "com.example.Draft")]
      definition := some { qualifiedName := ConstraintKind.notNull.annotationType } },
    { type := "com.example.Label"
      definition := some { qualifiedName := "com.example.Label" } }]

/-- The field with a draft and a foreign annotation has no constraints where drafts are ignored. -/
theorem constraints_eq_nil_draftField :
    draftField.hasConstraints false withoutDrafts = false ∧
    draftField.constraints withoutDrafts = .ok [] ∧
    draftField.describe false withoutDrafts = .ok none := by
  have unconstrained : draftField.hasConstraints false withoutDrafts = false := by
    decide
  obtain ⟨-, -, own⟩ := constraints_eq_nil_of_not_hasConstraints unconstrained
  refine ⟨unconstrained, own ?_⟩
  simp [draftField]

/-- A field whose annotation for a constraint comes with another declaration. -/
def shadowedField : Declaration where
  name := "id"
  annotations := [
    { type := ConstraintKind.notNull.annotationType
      definition := some { qualifiedName := "com.example.NotNull" } }]

/-- The field whose annotation comes with another declaration has a constraint, but none by its
packages. -/
theorem constraints_shadowedField :
    shadowedField.hasConstraints false (.ignoring []) = false ∧
    shadowedField.constraints (.ignoring []) = .ok [.notNull] ∧
    shadowedField.describe false (.ignoring []) = .ok (some "required") :=
  ⟨by decide, rfl, rfl⟩

section Suppressed

variable (suppressed : ∀ use ∈ declaration.annotations, ∃ group ∈ use.groups,
  group ∈ filter.ignored)
include suppressed

/-- Where every annotation has an ignored group, no kind is presented. -/
theorem not_shows_of_suppressed (kind : ConstraintKind) : ¬ declaration.Shows filter kind := by
  rintro ⟨use, presents⟩
  obtain ⟨group, listed, ignored⟩ := suppressed use presents.mem
  exact presents.2.2 group listed ignored

/-- Where every annotation has an ignored group, there are no constraints by packages either. -/
theorem hasConstraints_of_suppressed : declaration.hasConstraints false filter = false := by
  rw [hasConstraints_eq_false_iff]
  intro use member _
  obtain ⟨group, listed, ignored⟩ := suppressed use member
  rw [Bool.eq_false_iff, ne_eq, GroupFilter.isActive_iff]
  exact fun active => active group listed ignored

/-- Where every annotation has an ignored group, a declaration is required by the types of its
annotations alone. -/
theorem isRequired_iff_of_suppressed :
    declaration.isRequired filter = true ↔
      ∃ use ∈ declaration.annotations, ∃ type, use.definition = some type ∧
        type.toDeclaration.ShowsWithin filter .notNull 1 := by
  rw [isRequired_iff, showsWithin_succ_iff, or_iff_right (not_shows_of_suppressed suppressed _)]
  simp only [annotationTypes, List.mem_filterMap]
  constructor
  · rintro ⟨type, ⟨use, member, declared⟩, within⟩
    exact ⟨use, member, type, declared, within⟩
  · rintro ⟨use, member, type, declared, within⟩
    exact ⟨type, ⟨use, member, declared⟩, within⟩

end Suppressed

/-- Without constraints a type is decorated with nothing, and comes back as it is. -/
theorem decorate_of_constraints_eq_nil {base : SchemaType} {settings : Settings}
    (nothing : declaration.constraints settings.filter = .ok []) :
    base.decorate declaration settings = .ok base := by
  rw [SchemaType.decorate, nothing]
  rfl

/-- If each annotation of a declaration has a group that is ignored, it has no
constraints, asking for them says no, nothing is described, and every base is left as it
is. It is required just if one of the types of its annotations is declared with the
annotation for that, or with an annotation whose type is; so it is not where the types
are not known. -/
theorem suppressed_answers
    (suppressed : ∀ use ∈ declaration.annotations, ∃ group ∈ use.groups,
      group ∈ filter.ignored) :
    declaration.constraints filter = .ok [] ∧
    declaration.hasConstraints false filter = false ∧
    declaration.describe false filter = .ok none ∧
    (∀ (base : SchemaType) (settings : Settings), settings.filter = filter →
      base.decorate declaration settings = .ok base) ∧
    (declaration.isRequired filter = true ↔
      ∃ use ∈ declaration.annotations, ∃ type, use.definition = some type ∧
        type.toDeclaration.ShowsWithin filter .notNull 1) ∧
    ((∀ use ∈ declaration.annotations, use.definition = none) →
      declaration.isRequired filter = false) := by
  have nothing : declaration.constraints filter = .ok [] :=
    constraints_eq_nil_iff.mpr (not_shows_of_suppressed suppressed)
  refine ⟨nothing, hasConstraints_of_suppressed suppressed, describe_eq_none_iff.mpr nothing, ?_,
    isRequired_iff_of_suppressed suppressed, fun undeclared => ?_⟩
  · rintro base settings rfl
    exact decorate_of_constraints_eq_nil nothing
  · rw [Bool.eq_false_iff, ne_eq, isRequired_iff_shows undeclared]
    exact not_shows_of_suppressed suppressed .notNull

/-- A field with an annotation for drafts, whose type is declared with an annotation of
a kind. -/
def mailField (kind : ConstraintKind) : Declaration where
  name := "mail"
  annotations := [
    { type := "com.example.Email"
      values := [("groups", .array [.classLiteral "com.example.Draft"])]
      definition := some
        { qualifiedName := "com.example.Email"
          annotations := [{ type := kind.annotationType }] } }]

/-- The field with an annotation for drafts has no constraints where drafts are ignored. -/
theorem suppressed_answers_mailField :
    (∀ use ∈ (mailField .size).annotations, ∃ group ∈ use.groups, group ∈ withoutDrafts.ignored) ∧
    (mailField .size).constraints withoutDrafts = .ok [] ∧
    (mailField .size).hasConstraints false withoutDrafts = false ∧
    (SchemaType.builtin .string).decorate (mailField .size)
      { ignoredGroups := withoutDrafts.ignored } = .ok (.builtin .string) := by
  have suppressed : ∀ use ∈ (mailField .size).annotations,
      ∃ group ∈ use.groups, group ∈ withoutDrafts.ignored := by
    decide
  obtain ⟨nothing, unconstrained, -, unchanged, -⟩ := suppressed_answers suppressed
  exact ⟨suppressed, nothing, unconstrained, unchanged _ _ rfl⟩

/-- A declaration whose annotations are all ignored can be required by their types. -/
theorem isRequired_mailField :
    (∀ use ∈ (mailField .notNull).annotations,
      ∃ group ∈ use.groups, group ∈ withoutDrafts.ignored) ∧
    (mailField .notNull).isRequired withoutDrafts = true := by
  decide

end Declaration

end ConstraintFacets
