import ConstraintFacets.CommandLine.Run
import ConstraintFacets.Proofs.Extraction.Collected

/-! # Which declarations are required

A declaration is required if it, or a declaration that few enough hops from it, shows
the annotation for that (`ConstraintFacets.Declaration.isRequiredWithin_iff`); a hop
goes to the declaration of the type of an annotation. Where no such declarations are
known, being required and having the constraint for it come to the same, unless the
declaration also shows the annotation of values that must be null: that one excludes
the constraint, but a declaration stays required
(`ConstraintFacets.Declaration.isRequired_iff_mem_constraints`).
-/

namespace ConstraintFacets

namespace Constraint

variable {constraint : Constraint}

theorem kind_eq_null_iff : constraint.kind = .null ↔ constraint = .null := by
  cases constraint <;> simp [kind]

theorem kind_eq_notNull_iff : constraint.kind = .notNull ↔ constraint = .notNull := by
  cases constraint <;> simp [kind]

end Constraint

section WithRequired

variable {required : Bool} {constraints : List Constraint}

/-- A list has a constraint of the kind for required values just if that constraint is in it. -/
theorem any_notNull_iff :
    (constraints.any fun constraint => constraint.kind = .notNull) = true ↔
      .notNull ∈ constraints := by
  simp [Constraint.kind_eq_notNull_iff]

theorem withRequired_of_mem (member : .notNull ∈ constraints) :
    withRequired required constraints = constraints := by
  rw [withRequired, any_notNull_iff.mpr member, Bool.not_true, Bool.and_false]
  rfl

theorem withRequired_of_not_mem (absent : .notNull ∉ constraints) :
    withRequired true constraints = .notNull :: constraints := by
  rw [withRequired, Bool.eq_false_iff.mpr (mt any_notNull_iff.mp absent)]
  rfl

/-- Nothing but the constraint for required values is added. -/
theorem mem_withRequired_iff {constraint : Constraint} :
    constraint ∈ withRequired required constraints ↔
      constraint ∈ constraints ∨ required = true ∧ constraint = .notNull := by
  by_cases member : .notNull ∈ constraints
  · rw [withRequired_of_mem member]
    exact ⟨.inl, fun either => either.elim id fun ⟨_, same⟩ => same ▸ member⟩
  · cases required with
    | false => simp [withRequired]
    | true => simp [withRequired_of_not_mem member, or_comm]

end WithRequired

namespace Declaration

/-- So many hops lead from a declaration to another one. -/
inductive Reaches : Nat → Declaration → Declaration → Prop where
  | here (declaration : Declaration) : Reaches 0 declaration declaration
  | hop {hops : Nat} {declaration reached : Declaration} {use : AnnotationUse}
      {type : AnnotationType} (carried : use ∈ declaration.annotations)
      (declared : use.definition = some type)
      (further : Reaches hops type.toDeclaration reached) :
      Reaches (hops + 1) declaration reached

/-- A declaration presents a kind of constraint by one of its annotations. -/
def Shows (declaration : Declaration) (filter : GroupFilter) (kind : ConstraintKind) : Prop :=
  ∃ use, declaration.Presents filter kind use

/-- A declaration that presents a kind of constraint is at most so many hops away. -/
def ShowsWithin (declaration : Declaration) (filter : GroupFilter) (kind : ConstraintKind)
    (hops : Nat) : Prop :=
  ∃ taken ≤ hops, ∃ reached, Reaches taken declaration reached ∧ reached.Shows filter kind

variable {declaration : Declaration} {filter : GroupFilter} {kind : ConstraintKind}
  {hops depth : Nat}

/-- There is an active annotation of a kind just if the declaration presents that kind. -/
theorem isSome_active?_iff :
    (declaration.active? kind filter).isSome = true ↔ declaration.Shows filter kind := by
  simp only [Option.isSome_iff_exists, active?_eq_some_iff, Shows]

instance : Decidable (declaration.Shows filter kind) :=
  decidable_of_iff _ isSome_active?_iff

theorem showsWithin_zero_iff :
    declaration.ShowsWithin filter kind 0 ↔ declaration.Shows filter kind := by
  constructor
  · rintro ⟨_, none, _, reaches, shows⟩
    cases reaches with
    | here => exact shows
    | hop => contradiction
  · exact fun shows => ⟨0, Nat.le_refl 0, declaration, .here declaration, shows⟩

/-- One hop more reaches what the types of the annotations show with the hops left. -/
theorem showsWithin_succ_iff :
    declaration.ShowsWithin filter kind (hops + 1) ↔
      declaration.Shows filter kind ∨
        ∃ type ∈ declaration.annotationTypes, type.toDeclaration.ShowsWithin filter kind hops := by
  constructor
  · rintro ⟨_, few, reached, reaches, shows⟩
    cases reaches with
    | here => exact .inl shows
    | hop carried declared further =>
      refine .inr ⟨_, List.mem_filterMap.mpr ⟨_, carried, declared⟩, _, ?_, reached, further, shows⟩
      exact Nat.le_of_succ_le_succ few
  · rintro (shows | ⟨type, listed, taken, few, reached, reaches, shows⟩)
    · exact ⟨0, Nat.zero_le _, declaration, .here declaration, shows⟩
    · obtain ⟨use, carried, declared⟩ := List.mem_filterMap.mp listed
      exact ⟨taken + 1, Nat.succ_le_succ few, reached, .hop carried declared reaches, shows⟩

/-- The search to a depth sees what is one hop further than that. -/
theorem isRequiredWithin_iff :
    isRequiredWithin filter depth declaration = true ↔
      declaration.ShowsWithin filter .notNull (depth + 1) := by
  induction depth generalizing declaration with
  | zero =>
    simp only [isRequiredWithin, Bool.or_eq_true, List.any_eq_true, isRequiredDirectly,
      isSome_active?_iff, showsWithin_succ_iff, showsWithin_zero_iff]
  | succ depth ih =>
    rw [isRequiredWithin, Bool.or_eq_true, List.any_eq_true, isRequiredDirectly,
      isSome_active?_iff, showsWithin_succ_iff]
    simp only [ih]

/-- A declaration is required just if a required one is at most two hops away. -/
theorem isRequired_iff :
    declaration.isRequired filter = true ↔ declaration.ShowsWithin filter .notNull 2 :=
  isRequiredWithin_iff

section Undeclared

variable (undeclared : ∀ use ∈ declaration.annotations, use.definition = none)
include undeclared

/-- Without declarations of their types annotations lead nowhere. -/
theorem annotationTypes_eq_nil : declaration.annotationTypes = [] :=
  List.filterMap_eq_nil_iff.mpr undeclared

/-- A declaration whose annotations lead nowhere is required just if it says so itself. -/
theorem isRequired_iff_shows :
    declaration.isRequired filter = true ↔ declaration.Shows filter .notNull := by
  rw [isRequired_iff, showsWithin_succ_iff, annotationTypes_eq_nil undeclared]
  simp

end Undeclared

variable {constraints : List Constraint}

/-- The constraint for required values is collected just if its kind is presented. -/
theorem Collects.mem_notNull_iff (collects : declaration.Collects filter constraints) :
    .notNull ∈ constraints ↔ declaration.Shows filter .notNull := by
  rw [Shows, ← collects.complete .notNull, List.mem_map]
  simp only [Constraint.kind_eq_notNull_iff, exists_eq_right]

/-- The constraint for values that must be null is collected just if its kind is presented. -/
theorem Collects.mem_null_iff (collects : declaration.Collects filter constraints) :
    .null ∈ constraints ↔ declaration.Shows filter .null := by
  rw [Shows, ← collects.complete .null, List.mem_map]
  simp only [Constraint.kind_eq_null_iff, exists_eq_right]

/-- The listing as text describes the constraints, with that for required values if the
declaration is required. -/
theorem listConstraints_text (collected : declaration.constraints filter = .ok constraints) :
    listConstraints declaration filter false false =
      .ok (textLine (declaration.name ++ ": " ++
        (describeAll (withRequired (declaration.isRequired filter) constraints)).getD
          "no constraints")) := by
  simp only [listConstraints, describe, collected, Bool.false_or, Bool.false_eq_true, ↓reduceIte]
  rfl

/-- What is described of a declaration says both that it is required and that it must
be null just if its annotations do. -/
theorem mem_described_iff
    (undeclared : ∀ use ∈ declaration.annotations, use.definition = none)
    (collected : declaration.constraints filter = .ok constraints) :
    .notNull ∈ withRequired (declaration.isRequired filter) constraints ∧
        .null ∈ withRequired (declaration.isRequired filter) constraints ↔
      declaration.Shows filter .null ∧ declaration.Shows filter .notNull := by
  have required : declaration.isRequired filter = true ↔ declaration.Shows filter .notNull :=
    isRequired_iff_shows undeclared
  simp only [mem_withRequired_iff, required, and_true, reduceCtorEq, and_false, or_false]
  rcases collects_or_null_of_constraints collected with ⟨null, rfl⟩ | ⟨notNull, collects⟩
  · have null : declaration.Shows filter .null := null
    simp [null]
  · simp only [collects.mem_notNull_iff, collects.mem_null_iff, or_self, and_comm]

/-- Without known declarations of annotation types, a declaration is required just if
that is one of its constraints, unless it shows both the annotation for that and the
one of values that must be null. Then to be null is the only constraint, the
declaration is required all the same, and the listing says both. In no other case does
the listing say both. -/
theorem isRequired_iff_mem_constraints
    (undeclared : ∀ use ∈ declaration.annotations, use.definition = none)
    (collected : declaration.constraints filter = .ok constraints) :
    (¬ (declaration.Shows filter .null ∧ declaration.Shows filter .notNull) →
      (declaration.isRequired filter = true ↔ .notNull ∈ constraints)) ∧
    (declaration.Shows filter .null ∧ declaration.Shows filter .notNull →
      constraints = [.null] ∧ declaration.isRequired filter = true) ∧
    ∃ described, described = withRequired (declaration.isRequired filter) constraints ∧
      listConstraints declaration filter false false = .ok (textLine (declaration.name ++ ": " ++
        (describeAll described).getD "no constraints")) ∧
      (.notNull ∈ described ∧ .null ∈ described ↔
        declaration.Shows filter .null ∧ declaration.Shows filter .notNull) := by
  have required : declaration.isRequired filter = true ↔ declaration.Shows filter .notNull :=
    isRequired_iff_shows undeclared
  refine ⟨fun apart => ?_, fun ⟨null, notNull⟩ => ⟨?_, required.mpr notNull⟩, _, rfl,
    listConstraints_text collected, mem_described_iff undeclared collected⟩
  · rw [required]
    rcases collects_or_null_of_constraints collected with ⟨null, rfl⟩ | ⟨_, collects⟩
    · have absent : ¬ declaration.Shows filter .notNull := fun notNull => apart ⟨null, notNull⟩
      simp [absent]
    · exact collects.mem_notNull_iff.symm
  · rcases collects_or_null_of_constraints collected with ⟨_, only⟩ | ⟨absent, _⟩
    · exact only
    · exact absurd null absent

/-- A field with an identity, which is required. -/
def identifiedField : Declaration where
  name := "id"
  annotations := [
    { type := ConstraintKind.size.annotationType, values := [("max", .int 36)] },
    { type := ConstraintKind.notNull.annotationType }]

/-- The field with an identity is required, and its constraints say so. -/
theorem isRequired_iff_mem_constraints_identifiedField :
    (∀ use ∈ identifiedField.annotations, use.definition = none) ∧
    identifiedField.constraints (.ignoring []) = .ok [.notNull, .size 36 0] ∧
    (identifiedField.isRequired (.ignoring []) = true ↔
      Constraint.notNull ∈ [.notNull, .size 36 0]) ∧
    listConstraints identifiedField (.ignoring []) false false =
      .ok "id: required, max size: 36, min size: 0\n" := by
  have undeclared : ∀ use ∈ identifiedField.annotations, use.definition = none := by
    simp [identifiedField]
  have collected : identifiedField.constraints (.ignoring []) = .ok [.notNull, .size 36 0] := rfl
  obtain ⟨agree, -, -⟩ := isRequired_iff_mem_constraints undeclared collected
  exact ⟨undeclared, collected, agree (by decide), rfl⟩

/-- A field that must be null and must not be. -/
def contradictoryField : Declaration where
  name := "legacy"
  annotations := [
    { type := ConstraintKind.notNull.annotationType },
    { type := ConstraintKind.null.annotationType }]

/-- The field that must be null and must not be is required, but its constraints do not say so. -/
theorem isRequired_contradictoryField :
    (∀ use ∈ contradictoryField.annotations, use.definition = none) ∧
    contradictoryField.constraints (.ignoring []) = .ok [.null] ∧
    ¬ (contradictoryField.isRequired (.ignoring []) = true ↔ Constraint.notNull ∈ [.null]) ∧
    listConstraints contradictoryField (.ignoring []) false false =
      .ok "legacy: required, must be null\n" := by
  refine ⟨by simp [contradictoryField], rfl, by decide, rfl⟩

end Declaration

end ConstraintFacets
