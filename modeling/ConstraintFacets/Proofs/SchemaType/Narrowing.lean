import ConstraintFacets.Projection

/-! # Restricting a type step by step

A run restricts a type by one list of constraints after the other
(`ConstraintFacets.SchemaType.narrowAll`). A step that has only constraints on
presence and dates leaves the type as it is; every other step adds one layer on
top of it. The run keeps the name of the type and the facets that it admits, and
adds the facets of its steps in order. Upper and lower bounds limit the length
only as long as the type is the built-in type with which the run began
(`ConstraintFacets.SchemaType.narrowAll_run`).
-/

namespace ConstraintFacets

/-- One step of a run: the constraints and how bounds are understood. -/
structure NarrowingStep where
  constraints : List Constraint
  policy : LengthPolicy

/-- A step has only constraints on presence and dates. -/
def NarrowingStep.IsVacuous (step : NarrowingStep) : Prop :=
  ∀ constraint ∈ step.constraints,
    constraint.kind ∈ [ConstraintKind.null, .notNull, .future, .past]

/-- Only constraints on presence and dates have no facets. -/
theorem Constraint.facets_eq_nil_iff {constraint : Constraint} {boundsLength : Bool} :
    constraint.facets boundsLength = [] ↔
      constraint.kind ∈ [ConstraintKind.null, .notNull, .future, .past] := by
  cases constraint <;> simp [facets, kind]

namespace SchemaType

/-- The facets that a step adds to a type. -/
def facetsOf (type : SchemaType) (step : NarrowingStep) : List Restriction :=
  type.project step.constraints step.policy

/-- A type restricted by a step. -/
def narrowBy (type : SchemaType) (step : NarrowingStep) : SchemaType :=
  type.restrict step.constraints step.policy

/-- A type restricted by one step after the other. -/
def narrowAll (type : SchemaType) (steps : List NarrowingStep) : SchemaType :=
  steps.foldl narrowBy type

/-- The facets that each step of a run adds, step by step. -/
def facetsAlong (type : SchemaType) : List NarrowingStep → List (List Restriction)
  | [] => []
  | step :: rest => type.facetsOf step :: (type.narrowBy step).facetsAlong rest

/-- Upper and lower bounds become facets that limit the length. -/
def BoundsLength (type : SchemaType) (policy : LengthPolicy) : Prop :=
  ∀ value : Int64,
    type.project [.max value] policy = [⟨.maxLength, Integer.text value.toInt⟩] ∧
    type.project [.min value] policy = [⟨.minLength, Integer.text value.toInt⟩]

/-- Upper and lower bounds become facets that limit the value. -/
def BoundsValue (type : SchemaType) (policy : LengthPolicy) : Prop :=
  ∀ value : Int64,
    type.project [.max value] policy = [⟨.maxInclusive, Integer.text value.toInt⟩] ∧
    type.project [.min value] policy = [⟨.minInclusive, Integer.text value.toInt⟩]

section Step

variable {type : SchemaType} {step : NarrowingStep}

/-- A step has no facets just if it has no constraints but on presence and dates. -/
theorem facetsOf_eq_nil_iff : type.facetsOf step = [] ↔ step.IsVacuous := by
  unfold facetsOf project NarrowingStep.IsVacuous
  rw [List.flatMap_eq_nil_iff]
  simp only [Constraint.facets_eq_nil_iff]

/-- A step without facets leaves the type as it is. -/
theorem narrowBy_of_vacuous (vacuous : step.IsVacuous) : type.narrowBy step = type := by
  exact dif_pos (facetsOf_eq_nil_iff.mpr vacuous)

variable (type) in
/-- Every other step puts its facets on top of the type. -/
theorem narrowBy_of_not_vacuous (facetted : ¬ step.IsVacuous) :
    ∃ nonempty, type.narrowBy step = restricted type (type.facetsOf step) nonempty := by
  have nonempty : type.facetsOf step ≠ [] := fun none => facetted (facetsOf_eq_nil_iff.mp none)
  exact ⟨nonempty, dif_neg nonempty⟩

/-- Only a step without facets leaves the type as it is. -/
theorem narrowBy_eq_self_iff : type.narrowBy step = type ↔ step.IsVacuous := by
  constructor
  · intro same
    by_cases vacuous : step.IsVacuous
    · exact vacuous
    · obtain ⟨nonempty, narrowed⟩ := type.narrowBy_of_not_vacuous vacuous
      exact absurd (narrowed.symm.trans same) (restricted_ne_base nonempty)
  · exact narrowBy_of_vacuous

/-- The facets of a step are a layer of their own, if there are any. -/
theorem layers_narrowBy :
    (type.narrowBy step).layers =
      type.layers ++ [type.facetsOf step].filter fun layer => !layer.isEmpty := by
  by_cases vacuous : step.IsVacuous
  · have none : type.facetsOf step = [] := facetsOf_eq_nil_iff.mpr vacuous
    rw [narrowBy_of_vacuous vacuous, none]
    exact (List.append_nil _).symm
  · obtain ⟨nonempty, narrowed⟩ := type.narrowBy_of_not_vacuous vacuous
    rw [narrowed, layers, List.filter_cons_of_pos (by simpa using nonempty), List.filter_nil]

/-- What a restriction has from its base is kept by a step. -/
theorem narrowBy_keeps {α : Type} (observe : SchemaType → α)
    (inherited : ∀ base facets nonempty, observe (restricted base facets nonempty) = observe base) :
    observe (type.narrowBy step) = observe type := by
  by_cases vacuous : step.IsVacuous
  · rw [narrowBy_of_vacuous vacuous]
  · obtain ⟨nonempty, narrowed⟩ := type.narrowBy_of_not_vacuous vacuous
    rw [narrowed, inherited]

/-- The facets of a step are those of its constraints, one after the other. -/
theorem facetsOf_eq_flatMap :
    type.facetsOf step =
      step.constraints.flatMap fun constraint => type.project [constraint] step.policy := by
  simp only [facetsOf, project, List.flatMap_singleton]

end Step

section Run

variable (base : SchemaType) (steps : List NarrowingStep)

theorem narrowAll_append (later : List NarrowingStep) :
    base.narrowAll (steps ++ later) = (base.narrowAll steps).narrowAll later :=
  List.foldl_append

/-- What a restriction inherits from its base, a run keeps. -/
theorem narrowAll_keeps {α : Type} (observe : SchemaType → α)
    (inherited : ∀ base facets nonempty, observe (restricted base facets nonempty) = observe base) :
    observe (base.narrowAll steps) = observe base := by
  induction steps generalizing base with
  | nil => rfl
  | cons step rest ih => exact (ih (base.narrowBy step)).trans (narrowBy_keeps observe inherited)

/-- The layers of a run are those of the type at its beginning, and one for each
step that adds facets. -/
theorem layers_narrowAll :
    (base.narrowAll steps).layers =
      base.layers ++ (base.facetsAlong steps).filter fun layer => !layer.isEmpty := by
  induction steps generalizing base with
  | nil => exact (List.append_nil _).symm
  | cons step rest ih =>
      calc ((base.narrowBy step).narrowAll rest).layers
          = (base.narrowBy step).layers ++
              ((base.narrowBy step).facetsAlong rest).filter fun layer => !layer.isEmpty := ih _
        _ = base.layers ++
              (base.facetsAlong (step :: rest)).filter fun layer => !layer.isEmpty := by
            rw [layers_narrowBy, List.append_assoc, ← List.filter_append]
            rfl

/-- The facets along a run come behind those of its base, in order. -/
theorem allRestrictions_narrowAll :
    (base.narrowAll steps).allRestrictions =
      base.allRestrictions ++ (base.facetsAlong steps).flatten := by
  rw [allRestrictions_eq_flatten, layers_narrowAll, List.flatten_append,
    List.flatten_filter_not_isEmpty, ← allRestrictions_eq_flatten]

theorem length_facetsAlong : (base.facetsAlong steps).length = steps.length := by
  induction steps generalizing base with
  | nil => rfl
  | cons step rest ih => exact congrArg (· + 1) (ih (base.narrowBy step))

/-- A step in a run has the facets that it has on the type that the steps before it lead to. -/
theorem facetsAlong_append (step : NarrowingStep) (later : List NarrowingStep) :
    base.facetsAlong (steps ++ step :: later) =
      base.facetsAlong steps ++ (base.narrowAll steps).facetsOf step ::
        (base.narrowAll (steps ++ [step])).facetsAlong later := by
  induction steps generalizing base with
  | nil => rfl
  | cons first rest ih =>
      simp only [List.cons_append, facetsAlong, ih]
      rfl

/-- A run of steps without facets leaves the type as it is. -/
theorem narrowAll_eq_self_of_vacuous (vacuous : ∀ step ∈ steps, step.IsVacuous) :
    base.narrowAll steps = base := by
  induction steps with
  | nil => rfl
  | cons step rest ih =>
      rw [List.forall_mem_cons] at vacuous
      calc (base.narrowBy step).narrowAll rest
          = base.narrowAll rest := by rw [narrowBy_of_vacuous vacuous.1]
        _ = base := ih vacuous.2

/-- A run ends with a restricted type just if it starts with one or has a step with facets. -/
theorem isRestricted_narrowAll :
    (base.narrowAll steps).isRestricted ↔
      base.isRestricted ∨ ∃ step ∈ steps, ¬ step.IsVacuous := by
  induction steps generalizing base with
  | nil => simp [narrowAll]
  | cons step rest ih =>
      have head : (base.narrowBy step).isRestricted ↔ base.isRestricted ∨ ¬ step.IsVacuous := by
        by_cases vacuous : step.IsVacuous
        · rw [narrowBy_of_vacuous vacuous]
          simp [vacuous]
        · obtain ⟨nonempty, narrowed⟩ := base.narrowBy_of_not_vacuous vacuous
          rw [narrowed]
          simp [vacuous, isRestricted]
      calc ((base.narrowBy step).narrowAll rest).isRestricted = true
          ↔ (base.narrowBy step).isRestricted ∨ ∃ later ∈ rest, ¬ later.IsVacuous := ih _
        _ ↔ base.isRestricted ∨ ∃ other ∈ step :: rest, ¬ other.IsVacuous := by
            rw [head, or_assoc]
            simp only [List.mem_cons, exists_eq_or_imp]

end Run

/-- Bounds limit the length just where the policy says so. -/
theorem boundsLength_iff {type : SchemaType} {policy : LengthPolicy} :
    type.BoundsLength policy ↔ policy.boundsLength type = true := by
  simp only [BoundsLength, project, List.flatMap_singleton, Constraint.facets]
  cases policy.boundsLength type <;> simp

/-- Bounds limit the value just where the policy does not say otherwise. -/
theorem boundsValue_iff {type : SchemaType} {policy : LengthPolicy} :
    type.BoundsValue policy ↔ policy.boundsLength type = false := by
  simp only [BoundsValue, project, List.flatMap_singleton, Constraint.facets]
  cases policy.boundsLength type <;> simp

/-- Bounds limit the length on built-in types only. -/
theorem exists_builtin_of_boundsLength {type : SchemaType} {policy : LengthPolicy}
    (lengths : policy.boundsLength type = true) : ∃ known, type = builtin known := by
  cases type with
  | builtin known => exact ⟨known, rfl⟩
  | specified type => cases lengths
  | restricted base facets nonempty => cases lengths

/-- On a restricted type, bounds limit the value under every policy. -/
theorem boundsValue_of_isRestricted {type : SchemaType} (policy : LengthPolicy)
    (restricted : type.isRestricted) : type.BoundsValue policy := by
  rw [boundsValue_iff]
  cases lengths : policy.boundsLength type with
  | false => rfl
  | true =>
      obtain ⟨known, rfl⟩ := exists_builtin_of_boundsLength lengths
      cases restricted

/-- Along a run, bounds limit the length only until the first step that adds
facets. -/
theorem boundsLength_narrowAll_iff {base : SchemaType} {steps : List NarrowingStep}
    {policy : LengthPolicy} :
    (base.narrowAll steps).BoundsLength policy ↔
      base.narrowAll steps = base ∧ (∃ known, base = builtin known) ∧
        policy.boundsLength base = true := by
  rw [boundsLength_iff]
  constructor
  · intro lengths
    obtain ⟨known, isKnown⟩ := exists_builtin_of_boundsLength lengths
    have vacuous : ∀ step ∈ steps, step.IsVacuous := by
      intro step listed
      by_cases vacuous : step.IsVacuous
      · exact vacuous
      · -- A step with facets would leave a restriction, which is not built in.
        have restricted := (base.isRestricted_narrowAll steps).mpr (.inr ⟨step, listed, vacuous⟩)
        rw [isKnown] at restricted
        cases restricted
    have unchanged := base.narrowAll_eq_self_of_vacuous steps vacuous
    rw [unchanged] at lengths isKnown
    exact ⟨unchanged, ⟨known, isKnown⟩, lengths⟩
  · rintro ⟨unchanged, _, lengths⟩
    rw [unchanged]
    exact lengths

/-- **Runs of restriction.** No layer of the type at the end is empty: the run adds
one for each step that is not vacuous, and its facets come behind those of the type
at the beginning. The name, the facets that are admitted and whether the type is
simple or anonymous stay. A step returns the type before it if and only if it is
vacuous, and otherwise a restriction of exactly that type, by the facets of its
constraints one after the other. Bounds limit the length only on the built-in type
at the beginning, and the value behind the first step that is not vacuous. -/
theorem narrowAll_run (base : SchemaType) (steps : List NarrowingStep) :
    ((∀ layer ∈ (base.narrowAll steps).layers, layer ≠ []) ∧
      (base.narrowAll steps).layers =
        base.layers ++ (base.facetsAlong steps).filter fun layer => !layer.isEmpty) ∧
    (base.narrowAll steps).allRestrictions =
      base.allRestrictions ++ (base.facetsAlong steps).flatten ∧
    ((base.narrowAll steps).qualifiedName = base.qualifiedName ∧
      (base.narrowAll steps).isSimple = base.isSimple ∧
      (base.narrowAll steps).isAnonymous = base.isAnonymous ∧
      (base.narrowAll steps).admits = base.admits ∧
      ((base.narrowAll steps).isRestricted ↔
        base.isRestricted ∨ ∃ step ∈ steps, ¬ step.IsVacuous)) ∧
    ∀ before step after, steps = before ++ step :: after →
      (base.narrowAll (before ++ [step]) = base.narrowAll before ↔ step.IsVacuous) ∧
      (¬ step.IsVacuous → ∃ nonempty, base.narrowAll (before ++ [step]) =
        restricted (base.narrowAll before) ((base.narrowAll before).facetsOf step) nonempty) ∧
      (base.facetsAlong steps)[before.length]? = some (step.constraints.flatMap fun constraint =>
        (base.narrowAll before).project [constraint] step.policy) ∧
      ((base.narrowAll before).BoundsLength step.policy ∨
        (base.narrowAll before).BoundsValue step.policy) ∧
      ((base.narrowAll before).BoundsLength step.policy ↔
        base.narrowAll before = base ∧ (∃ known, base = builtin known) ∧
          step.policy.boundsLength base = true) ∧
      ((∃ earlier ∈ before, ¬ earlier.IsVacuous) →
        (base.narrowAll before).BoundsValue step.policy) := by
  refine ⟨⟨fun layer => ne_nil_of_mem_layers, base.layers_narrowAll steps⟩,
    base.allRestrictions_narrowAll steps, ⟨?_, ?_, ?_, ?_, base.isRestricted_narrowAll steps⟩, ?_⟩
  · apply base.narrowAll_keeps steps qualifiedName
    intros
    rfl
  · apply base.narrowAll_keeps steps isSimple
    intros
    rfl
  · apply base.narrowAll_keeps steps isAnonymous
    intros
    rfl
  · apply base.narrowAll_keeps steps admits
    intros
    rfl
  · intro before step after split
    rw [narrowAll_append]
    refine ⟨narrowBy_eq_self_iff, fun facetted => ?_, ?_, ?_, boundsLength_narrowAll_iff,
      fun earlier => ?_⟩
    · exact (base.narrowAll before).narrowBy_of_not_vacuous facetted
    · rw [split, facetsAlong_append, ← facetsOf_eq_flatMap, ← base.length_facetsAlong before]
      rw [List.getElem?_append_right (Nat.le_refl _), Nat.sub_self, List.getElem?_cons_zero]
    · rw [boundsLength_iff, boundsValue_iff]
      exact Bool.eq_false_or_eq_true _
    · apply boundsValue_of_isRestricted
      exact (base.isRestricted_narrowAll before).mpr (.inr earlier)

end SchemaType

end ConstraintFacets
