import ConstraintFacets.Proofs.Extraction.Suppression

/-! # Descriptions of constraints

The description of a declaration joins those of its constraints. That a value is required is
said first and once: the constraint for that is the least one that can stand beside others, so
it leads wherever it is collected, and where it is not it can be put in front
(`ConstraintFacets.Declaration.withRequired_of_constraints`). Asking for it makes a difference
just if it is not among the constraints (`ConstraintFacets.Declaration.describe_of_constraints`).
-/

namespace ConstraintFacets

/-- The descriptions of constraints, with a comma between each and the next. -/
def joined (constraints : List Constraint) : String :=
  String.intercalate ", " (constraints.map Constraint.description)

variable {constraints : List Constraint}

/-- Constraints are described one after the other, if there are any. -/
theorem describeAll_eq_some (nonempty : constraints ≠ []) :
    describeAll constraints = some (joined constraints) := by
  rw [describeAll, List.isEmpty_eq_false_iff.mpr nonempty]
  rfl

theorem joined_cons (constraint : Constraint) (nonempty : constraints ≠ []) :
    joined (constraint :: constraints) = constraint.description ++ ", " ++ joined constraints := by
  rw [joined, List.map_cons, String.intercalate_cons_of_ne_nil (by simpa using nonempty), joined]

/-- A description in front of others is seen. -/
theorem joined_cons_ne (constraint : Constraint) (nonempty : constraints ≠ []) :
    joined (constraint :: constraints) ≠ joined constraints := by
  intro same
  have longer := congrArg String.length (joined_cons constraint nonempty)
  have separator : ", ".length = 2 := rfl
  rw [same, String.length_append, String.length_append, separator] at longer
  omega

@[simp] theorem withRequired_false : withRequired false constraints = constraints := rfl

/-- Only values that must be null come before values that are required. -/
theorem ConstraintKind.eq_null_of_lt_notNull {kind : ConstraintKind} (less : kind < .notNull) :
    kind = .null := by
  cases kind with
  | null => rfl
  | _ => exact absurd less (by decide)

namespace Declaration

variable {declaration : Declaration} {filter : GroupFilter}

section Collected

variable (collected : declaration.constraints filter = .ok constraints)
include collected

/-- The constraint for required values comes first if values need not be null, and comes once. -/
theorem eq_cons_of_notNull_mem (member : .notNull ∈ constraints) :
    ∃ others, constraints = .notNull :: others ∧ .notNull ∉ others := by
  have increasing := increasing_of_constraints collected
  cases constraints with
  | nil => cases member
  | cons first others =>
    have above : ∀ constraint ∈ others, first.kind < constraint.kind := by
      intro constraint listed
      exact List.rel_of_pairwise_cons increasing (List.mem_map_of_mem listed)
    rcases List.mem_cons.mp member with rfl | later
    · exact ⟨others, rfl, fun again => absurd (above _ again) (Nat.lt_irrefl _)⟩
    · -- Only values that must be null come before, and those have no other constraint.
      have isNull := ConstraintKind.eq_null_of_lt_notNull (above _ later)
      rw [Constraint.kind_eq_null_iff] at isNull
      subst isNull
      rcases collects_or_null_of_constraints collected with ⟨-, only⟩ | ⟨absent, collects⟩
      · cases only
        cases later
      · exact absurd (collects.mem_null_iff.mp List.mem_cons_self) absent

/-- Adding the constraint for required values puts it first, and there is one of it. -/
theorem withRequired_of_constraints :
    withRequired true constraints = .notNull :: constraints.filter (· ≠ .notNull) := by
  have kept {others : List Constraint} (absent : .notNull ∉ others) :
      others.filter (· ≠ .notNull) = others := by
    rw [List.filter_eq_self]
    intro constraint listed
    exact decide_eq_true fun same => absent (same ▸ listed)
  by_cases member : .notNull ∈ constraints
  · rw [withRequired_of_mem member]
    obtain ⟨others, rfl, absent⟩ := eq_cons_of_notNull_mem collected member
    rw [List.filter_cons_of_neg (by simp), kept absent]
  · rw [withRequired_of_not_mem member, kept member]

/-- A declaration is described by its constraints, with that for required values if it is known
to be required. -/
theorem describe_eq (required : Bool) :
    declaration.describe required filter =
      .ok (describeAll (withRequired required constraints)) := by
  rw [describe, collected]
  rfl

/-- A required declaration is described as required first, and as that once. -/
theorem describe_true_eq :
    declaration.describe true filter = .ok (some (String.intercalate ", "
      ("required" :: (constraints.filter (· ≠ .notNull)).map Constraint.description))) := by
  rw [describe_eq collected, withRequired_of_constraints collected,
    describeAll_eq_some (List.cons_ne_nil _ _)]
  rfl

/-- Knowing that a declaration is required adds nothing just if its constraints say so. -/
theorem describe_eq_describe_iff :
    declaration.describe true filter = declaration.describe false filter ↔
      .notNull ∈ constraints := by
  rw [describe_eq collected, describe_eq collected, withRequired_false]
  constructor
  · intro same
    by_cases member : .notNull ∈ constraints
    · exact member
    rw [withRequired_of_not_mem member, describeAll_eq_some (List.cons_ne_nil _ _)] at same
    by_cases empty : constraints = []
    · subst empty
      cases same
    · rw [describeAll_eq_some empty] at same
      exact absurd (Option.some.inj (Except.ok.inj same)) (joined_cons_ne .notNull empty)
  · intro member
    rw [withRequired_of_mem member]

end Collected

/-- **Descriptions.** If the constraints of a declaration can be read, it is described, when
its value is known to be required, by that and then by its other constraints in their order.
When it is not known, there is no description just if there are no constraints, and otherwise
all of them are described. The two are the same just if the constraint for required values is
among the constraints; it is the first one then, so that nothing is put in front of it. If the
constraints cannot be read, the error is the same either way. -/
theorem describe_of_constraints (declaration : Declaration) (filter : GroupFilter) :
    (∀ constraints, declaration.constraints filter = .ok constraints →
      declaration.describe true filter = .ok (some (String.intercalate ", "
        ("required" :: (constraints.filter (· ≠ .notNull)).map Constraint.description))) ∧
      (declaration.describe false filter = .ok none ↔ constraints = []) ∧
      (constraints ≠ [] → declaration.describe false filter =
        .ok (some (String.intercalate ", " (constraints.map Constraint.description)))) ∧
      (declaration.describe true filter = declaration.describe false filter ↔
        .notNull ∈ constraints) ∧
      (.notNull ∈ constraints → ∃ others, constraints = .notNull :: others ∧
        .notNull ∉ others) ∧
      withRequired true constraints = .notNull :: constraints.filter (· ≠ .notNull)) ∧
    ∀ error, declaration.constraints filter = .error error →
      ∀ required, declaration.describe required filter = .error error := by
  refine ⟨fun constraints collected => ⟨describe_true_eq collected, ?_, fun nonempty => ?_,
    describe_eq_describe_iff collected, eq_cons_of_notNull_mem collected,
    withRequired_of_constraints collected⟩, fun error failed required => ?_⟩
  · rw [describe_eq_none_iff, collected, Except.ok.injEq]
  · rw [describe_eq collected, withRequired_false, describeAll_eq_some nonempty]
    rfl
  · rw [describe, failed]
    rfl

end Declaration

end ConstraintFacets
