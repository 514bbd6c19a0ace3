import ConstraintFacets.Proofs.Extraction.Suppression

/-! # Ignoring more groups

A filter that ignores more groups than another one leaves fewer annotations active.
A declaration then presents fewer kinds of constraints
(`ConstraintFacets.Declaration.Presents.of_wider`), so it is not required and has no
constraints where it was not or had none before. What it has are those constraints from
before whose kinds it still presents
(`ConstraintFacets.Declaration.constraintsOf_of_wider`), and nothing fails that did not
fail before, unless it was the annotation of values that must be null which kept the
others from being looked at
(`ConstraintFacets.Declaration.constraints_sublist_of_wider`).
-/

namespace ConstraintFacets

variable {less more : GroupFilter}

/-- An annotation that is active although more groups are ignored is active with fewer. -/
theorem GroupFilter.isActive_of_wider (wider : ∀ group ∈ less.ignored, group ∈ more.ignored)
    {use : AnnotationUse} (active : more.isActive use = true) : less.isActive use = true := by
  rw [isActive_iff] at active ⊢
  exact fun group listed ignored => active group listed (wider group ignored)

namespace Declaration

variable {declaration : Declaration} {kind : ConstraintKind} {kinds : List ConstraintKind}
  {use : AnnotationUse} {hops depth : Nat} {constraints : List Constraint}

section Wider

variable (wider : ∀ group ∈ less.ignored, group ∈ more.ignored)
include wider

/-- What is presented although more groups are ignored is presented with fewer. -/
theorem Presents.of_wider (presents : declaration.Presents more kind use) :
    declaration.Presents less kind use := by
  obtain ⟨first, isKind, active⟩ := presents
  exact ⟨first, isKind, fun group listed ignored => active group listed (wider group ignored)⟩

/-- So the kinds that a declaration presents become fewer as more groups are ignored. -/
theorem Shows.of_wider (shows : declaration.Shows more kind) : declaration.Shows less kind := by
  obtain ⟨use, presents⟩ := shows
  exact ⟨use, presents.of_wider wider⟩

/-- The same holds of the kinds that are presented some hops away. -/
theorem ShowsWithin.of_wider (shows : declaration.ShowsWithin more kind hops) :
    declaration.ShowsWithin less kind hops := by
  obtain ⟨taken, few, reached, reaches, shown⟩ := shows
  exact ⟨taken, few, reached, reaches, shown.of_wider wider⟩

/-- A declaration that is required although more groups are ignored is required with fewer. -/
theorem isRequiredWithin_of_wider (required : isRequiredWithin more depth declaration = true) :
    isRequiredWithin less depth declaration = true := by
  rw [isRequiredWithin_iff] at required ⊢
  exact required.of_wider wider

/-- Ignoring more groups adds no constraints to a declaration without any. -/
theorem hasConstraints_eq_false_of_wider
    (unconstrained : declaration.hasConstraints false less = false) :
    declaration.hasConstraints false more = false := by
  rw [hasConstraints_eq_false_iff] at unconstrained ⊢
  intro use listed standard
  have inactive := unconstrained use listed standard
  rw [Bool.eq_false_iff] at inactive ⊢
  exact fun active => inactive (GroupFilter.isActive_of_wider wider active)

/-- The active annotation of a kind is the same one with fewer groups ignored. -/
theorem active?_of_wider (active : declaration.active? kind more = some use) :
    declaration.active? kind less = some use := by
  rw [active?_eq_some_iff] at active ⊢
  exact active.of_wider wider

/-- Of the constraints that were collected those of the kinds that are still presented
are collected again. -/
theorem constraintsOf_of_wider
    (collected : declaration.constraintsOf less kinds = .ok constraints) :
    declaration.constraintsOf more kinds =
      .ok (constraints.filter fun constraint => declaration.Shows more constraint.kind) := by
  induction kinds generalizing constraints with
  | nil =>
    cases collected
    rfl
  | cons kind rest ih =>
    cases before : declaration.active? kind less with
    | none =>
      have absent : declaration.active? kind more = none := by
        rw [Option.eq_none_iff_forall_ne_some]
        intro use active
        rw [active?_of_wider wider active] at before
        cases before
      rw [constraintsOf_cons_absent before] at collected
      rw [constraintsOf_cons_absent absent, ih collected]
    | some use =>
      obtain ⟨constraint, others, read, collectedRest, rfl⟩ :=
        (constraintsOf_cons_eq_ok_iff before).mp collected
      have ofKind : constraint.kind = kind := (readConstraint_eq_ok_iff.mp read).1
      cases now : declaration.active? kind more with
      | none =>
        have hidden : ¬ declaration.Shows more constraint.kind := by
          rw [← isSome_active?_iff, ofKind, now]
          exact Bool.false_ne_true
        rw [constraintsOf_cons_absent now, ih collectedRest,
          List.filter_cons_of_neg (by simpa using hidden)]
      | some other =>
        -- The first annotation of a kind is the same one for both filters.
        have same : other = use := by
          rw [active?_of_wider wider now] at before
          exact Option.some.inj before
        have shown : declaration.Shows more constraint.kind := by
          rw [← isSome_active?_iff, ofKind, now]
          rfl
        rw [List.filter_cons_of_pos (by simpa using shown), constraintsOf_cons_eq_ok_iff now, same]
        exact ⟨constraint, _, read, ih collectedRest, rfl⟩

/-- Where values need not be null, the constraints of the kinds that are still presented are
left. -/
theorem constraints_of_wider (absent : ¬ declaration.Shows less .null)
    (collected : declaration.constraints less = .ok constraints) :
    declaration.constraints more =
      .ok (constraints.filter fun constraint => declaration.Shows more constraint.kind) := by
  have stillAbsent : ¬ declaration.Shows more .null := fun null => absent (null.of_wider wider)
  rw [constraints_eq_constraintsOf absent] at collected
  rw [constraints_eq_constraintsOf stillAbsent, constraintsOf_of_wider wider collected]

/-- A filter that ignores more groups makes no declaration required, to whatever depth
one looks, and gives constraints to none. If the annotation of values that must be null
was absent or inactive before, then those of the constraints are left whose kinds are
still presented, in their order, and collecting fails only where it failed before. -/
theorem constraints_sublist_of_wider (declaration : Declaration) :
    (declaration.isRequired less = false → declaration.isRequired more = false) ∧
    (∀ depth, isRequiredWithin less depth declaration = false →
      isRequiredWithin more depth declaration = false) ∧
    (declaration.hasConstraints false less = false →
      declaration.hasConstraints false more = false) ∧
    (declaration.active? .null less = none →
      (∀ constraints, declaration.constraints less = .ok constraints →
        ∃ fewer, declaration.constraints more = .ok fewer ∧ fewer.Sublist constraints ∧
          ∀ constraint, constraint ∈ fewer ↔
            constraint ∈ constraints ∧ declaration.Shows more constraint.kind) ∧
      ∀ error, declaration.constraints more = .error error →
        ∃ earlier, declaration.constraints less = .error earlier) := by
  have required (depth : Nat) (missing : isRequiredWithin less depth declaration = false) :
      isRequiredWithin more depth declaration = false := by
    rw [Bool.eq_false_iff] at missing ⊢
    exact fun found => missing (isRequiredWithin_of_wider wider found)
  refine ⟨required metaAnnotationDepth, required, hasConstraints_eq_false_of_wider wider, ?_⟩
  intro inactive
  have absent : ¬ declaration.Shows less .null := by
    rw [← isSome_active?_iff, inactive]
    exact Bool.false_ne_true
  constructor
  · intro constraints collected
    refine ⟨_, constraints_of_wider wider absent collected, List.filter_sublist, ?_⟩
    simp [List.mem_filter]
  · intro error failed
    cases result : declaration.constraints less with
    | error earlier => exact ⟨earlier, rfl⟩
    | ok constraints =>
      rw [constraints_of_wider wider absent result] at failed
      cases failed

end Wider

/-- A field with an unusable annotation for drafts, and another one for reviews. -/
def reviewedField : Declaration where
  name := "price"
  annotations := [
    { type := ConstraintKind.null.annotationType
      values := [("groups", .classLiteral "com.example.Draft")] },
    { type := ConstraintKind.size.annotationType
      values := [("max", .int 12)] },
    { type := ConstraintKind.decimalMax.annotationType
      values := [("groups", .array [.classLiteral "com.example.Draft"])] },
    { type := ConstraintKind.notNull.annotationType
      values := [("groups", .classLiteral " com.example.Review ")] }]

/-- The filter that ignores drafts and reviews. -/
def withoutReviews : GroupFilter :=
  .ignoring ["com.example.Review", "com.example.Draft"]

/-- A field with a review group: ignoring it too, the field is no longer required. -/
theorem constraints_sublist_reviewedField :
    (∀ group ∈ withoutDrafts.ignored, group ∈ withoutReviews.ignored) ∧
    reviewedField.active? .null withoutDrafts = none ∧
    reviewedField.constraints withoutDrafts = .ok [.notNull, .size 12 0] ∧
    ∃ fewer, reviewedField.constraints withoutReviews = .ok fewer ∧
      fewer.Sublist [.notNull, .size 12 0] ∧ Constraint.notNull ∉ fewer := by
  have wider : ∀ group ∈ withoutDrafts.ignored, group ∈ withoutReviews.ignored := by
    decide
  have inactive : reviewedField.active? .null withoutDrafts = none := rfl
  have collected : reviewedField.constraints withoutDrafts = .ok [.notNull, .size 12 0] := rfl
  obtain ⟨-, -, -, fewer⟩ := constraints_sublist_of_wider wider reviewedField
  obtain ⟨left, found, sublist, members⟩ := (fewer inactive).1 _ collected
  have hidden : ¬ reviewedField.Shows withoutReviews .notNull := by
    decide
  exact ⟨wider, inactive, collected, left, found, sublist, fun listed =>
    hidden ((members _).mp listed).2⟩

end Declaration

end ConstraintFacets
