import ConstraintFacets.Projection
import ConstraintFacets.Proofs.Extraction.Collected

/-! # Steps of restriction that a schema may have

A schema does not take every list of facets in one step of restriction: only patterns may
be repeated, and a bound may not be given both with and without itself
(`ConstraintFacets.Restriction.IsLegalStep`). The facets of one constraint are always such
a list. The constraints of a declaration are of different kinds, but constraints of two
kinds can limit the same thing (`ConstraintFacets.Constraint.Clashes`): what is collected
becomes a legal step if and only if no two of the constraints do
(`ConstraintFacets.SchemaType.isLegalStep_decorate_iff`).
-/

namespace ConstraintFacets

namespace Facet

/-- What a facet limits, named by a facet that does. A bound without itself limits what the
bound with itself does. -/
def limited : Facet → Facet
  | maxExclusive => maxInclusive
  | minExclusive => minInclusive
  | facet => facet

/-- Two facets may not stand in one step. -/
def Excludes (first second : Facet) : Prop :=
  first ≠ pattern ∧ first.limited = second.limited

instance (first second : Facet) : Decidable (first.Excludes second) :=
  inferInstanceAs (Decidable (_ ∧ _))

end Facet

/-- No facet but the pattern is given twice, and no bound both with and without itself. -/
def Restriction.IsLegalStep (facets : List Restriction) : Prop :=
  facets.Pairwise fun one other => ¬ one.facet.Excludes other.facet

instance (facets : List Restriction) : Decidable (Restriction.IsLegalStep facets) :=
  inferInstanceAs (Decidable (facets.Pairwise _))

namespace Constraint

/-- Two constraints limit the same thing: an upper or lower bound what a decimal bound
limits, or if bounds limit the length, what a size limits. -/
inductive Clashes (boundsLength : Bool) : Constraint → Constraint → Prop where
  | upper {literal : String} {inclusive : Bool} {value : Int64} (values : boundsLength = false) :
      Clashes boundsLength (decimalMax literal inclusive) (max value)
  | lower {literal : String} {inclusive : Bool} {value : Int64} (values : boundsLength = false) :
      Clashes boundsLength (decimalMin literal inclusive) (min value)
  | longest {value : Int64} {most least : Int32} (lengths : boundsLength = true) :
      Clashes boundsLength (max value) (size most least)
  | shortest {value : Int64} {most least : Int32} (lengths : boundsLength = true)
      (positive : 0 < least.toInt) : Clashes boundsLength (min value) (size most least)

/-- A constraint limits what a facet limits. -/
inductive Limits (boundsLength : Bool) : Constraint → Facet → Prop where
  | decimalMax {literal : String} {inclusive : Bool} :
      Limits boundsLength (decimalMax literal inclusive) .maxInclusive
  | upper {value : Int64} (values : boundsLength = false) :
      Limits boundsLength (max value) .maxInclusive
  | decimalMin {literal : String} {inclusive : Bool} :
      Limits boundsLength (decimalMin literal inclusive) .minInclusive
  | lower {value : Int64} (values : boundsLength = false) :
      Limits boundsLength (min value) .minInclusive
  | longest {value : Int64} (lengths : boundsLength = true) :
      Limits boundsLength (max value) .maxLength
  | most {most least : Int32} : Limits boundsLength (size most least) .maxLength
  | shortest {value : Int64} (lengths : boundsLength = true) :
      Limits boundsLength (min value) .minLength
  | least {most least : Int32} (positive : 0 < least.toInt) :
      Limits boundsLength (size most least) .minLength
  | total {integer fraction : Int32} : Limits boundsLength (digits integer fraction) .totalDigits
  | fraction {integer fraction : Int32} :
      Limits boundsLength (digits integer fraction) .fractionDigits

variable {boundsLength : Bool} {constraint first second : Constraint} {limit : Facet}

/-- A constraint limits what its facets limit, patterns apart. -/
theorem limits_of_mem_facets {restriction : Restriction}
    (given : restriction ∈ constraint.facets boundsLength)
    (single : restriction.facet ≠ .pattern) :
    constraint.Limits boundsLength restriction.facet.limited := by
  cases constraint with
  | null | notNull | future | past => cases given
  | isFalse | isTrue | regexp =>
    rw [List.mem_singleton.mp given] at single
    exact absurd rfl single
  | decimalMax literal inclusive =>
    rw [List.mem_singleton.mp given]
    cases inclusive <;> exact .decimalMax
  | decimalMin literal inclusive =>
    rw [List.mem_singleton.mp given]
    cases inclusive <;> exact .decimalMin
  | digits integer fraction =>
    rcases List.mem_cons.mp given with rfl | given
    · exact .total
    · rw [List.mem_singleton.mp given]
      exact .fraction
  | max value =>
    rw [List.mem_singleton.mp given]
    cases boundsLength with
    | false => exact .upper rfl
    | true => exact .longest rfl
  | min value =>
    rw [List.mem_singleton.mp given]
    cases boundsLength with
    | false => exact .lower rfl
    | true => exact .shortest rfl
  | size most least =>
    rcases List.mem_cons.mp given with rfl | given
    · exact .most
    · split at given
      · rename_i positive
        rw [List.mem_singleton.mp given]
        exact .least positive
      · cases given

/-- What a constraint limits is limited by one of its facets. -/
theorem exists_facet_of_limits (limits : constraint.Limits boundsLength limit) :
    ∃ restriction ∈ constraint.facets boundsLength,
      restriction.facet ≠ .pattern ∧ restriction.facet.limited = limit := by
  cases limits with
  | @decimalMax literal inclusive | @decimalMin literal inclusive =>
    cases inclusive <;> simp [facets, Facet.limited]
  | upper side | lower side | longest side | shortest side =>
    subst side
    simp [facets, Facet.limited]
  | most | total | fraction => simp [facets, Facet.limited]
  | least positive => simp [facets, Facet.limited, positive]

/-- Constraints that clash limit the same thing. -/
theorem Clashes.exists_limit (clash : first.Clashes boundsLength second) :
    ∃ limit, first.Limits boundsLength limit ∧ second.Limits boundsLength limit := by
  cases clash with
  | upper values => exact ⟨_, .decimalMax, .upper values⟩
  | lower values => exact ⟨_, .decimalMin, .lower values⟩
  | longest lengths => exact ⟨_, .longest lengths, .most⟩
  | shortest lengths positive => exact ⟨_, .shortest lengths, .least positive⟩

/-- Constraints of two kinds that limit the same thing clash. -/
theorem Limits.clashes (limits : first.Limits boundsLength limit)
    (also : second.Limits boundsLength limit) (apart : first.kind ≠ second.kind) :
    first.Clashes boundsLength second ∨ second.Clashes boundsLength first := by
  cases limits with
  | decimalMax =>
    cases also with
    | decimalMax => exact absurd rfl apart
    | upper values => exact .inl (.upper values)
  | upper values =>
    cases also with
    | decimalMax => exact .inr (.upper values)
    | upper => exact absurd rfl apart
  | decimalMin =>
    cases also with
    | decimalMin => exact absurd rfl apart
    | lower values => exact .inl (.lower values)
  | lower values =>
    cases also with
    | decimalMin => exact .inr (.lower values)
    | lower => exact absurd rfl apart
  | longest lengths =>
    cases also with
    | longest => exact absurd rfl apart
    | most => exact .inl (.longest lengths)
  | most =>
    cases also with
    | longest lengths => exact .inr (.longest lengths)
    | most => exact absurd rfl apart
  | shortest lengths =>
    cases also with
    | shortest => exact absurd rfl apart
    | least positive => exact .inl (.shortest lengths positive)
  | least positive =>
    cases also with
    | shortest lengths => exact .inr (.shortest lengths positive)
    | least => exact absurd rfl apart
  | total | fraction =>
    cases also
    exact absurd rfl apart

/-- Constraints of two kinds clash just if there is a thing that both limit. -/
theorem exists_limit_iff (apart : first.kind ≠ second.kind) :
    (∃ limit, first.Limits boundsLength limit ∧ second.Limits boundsLength limit) ↔
      first.Clashes boundsLength second ∨ second.Clashes boundsLength first := by
  constructor
  · rintro ⟨limit, limits, also⟩
    exact limits.clashes also apart
  · rintro (clash | clash)
    · exact clash.exists_limit
    · obtain ⟨limit, limits, also⟩ := clash.exists_limit
      exact ⟨limit, also, limits⟩

/-- The facets of a single constraint are a legal step. -/
theorem isLegalStep_facets : Restriction.IsLegalStep (constraint.facets boundsLength) := by
  unfold Restriction.IsLegalStep
  cases constraint with
  | size most least =>
    rw [facets]
    split <;> simp [Facet.Excludes, Facet.limited]
  | _ => simp [facets, Facet.Excludes, Facet.limited]

/-- Facets of two kinds of constraints exclude each other just if the constraints clash. -/
theorem excluded_facets_iff (apart : first.kind ≠ second.kind) :
    (∃ one ∈ first.facets boundsLength, ∃ other ∈ second.facets boundsLength,
      one.facet.Excludes other.facet) ↔
    first.Clashes boundsLength second ∨ second.Clashes boundsLength first := by
  rw [← exists_limit_iff apart]
  constructor
  · rintro ⟨one, given, other, alsoGiven, single, same⟩
    have alsoSingle : other.facet ≠ .pattern := by
      intro pattern
      rw [pattern] at same
      revert single same
      cases one.facet <;> decide
    exact ⟨_, limits_of_mem_facets given single, same ▸ limits_of_mem_facets alsoGiven alsoSingle⟩
  · rintro ⟨limit, limits, also⟩
    obtain ⟨one, given, single, isLimit⟩ := exists_facet_of_limits limits
    obtain ⟨other, alsoGiven, -, alsoLimit⟩ := exists_facet_of_limits also
    exact ⟨one, given, other, alsoGiven, single, isLimit.trans alsoLimit.symm⟩

theorem not_clashes_self : ¬ constraint.Clashes boundsLength constraint := by
  rintro ⟨⟩

/-- Of constraints of different kinds the facets are a legal step just if no two of them
limit the same thing. -/
theorem isLegalStep_flatMap_iff {constraints : List Constraint}
    (increasing : (constraints.map kind).Pairwise (· < ·)) :
    Restriction.IsLegalStep (constraints.flatMap (facets boundsLength)) ↔
      ∀ first ∈ constraints, ∀ second ∈ constraints, ¬ first.Clashes boundsLength second := by
  have apart : constraints.Pairwise fun first second => first.kind ≠ second.kind :=
    (List.pairwise_map.mp increasing).imp fun less same => Nat.ne_of_lt less (congrArg _ same)
  rw [Restriction.IsLegalStep, List.pairwise_flatMap]
  constructor
  · rintro ⟨-, compatible⟩
    have free : constraints.Pairwise fun first second =>
        ¬ (first.Clashes boundsLength second ∨ second.Clashes boundsLength first) := by
      refine compatible.imp₂ (fun first second compatible apart clash => ?_) apart
      obtain ⟨one, given, other, alsoGiven, excluded⟩ := (excluded_facets_iff apart).mpr clash
      exact compatible one given other alsoGiven excluded
    intro first listed second alsoListed
    exact List.Pairwise.forall_of_forall_of_flip (fun _ _ => not_clashes_self)
      (free.imp fun neither clash => neither (.inl clash))
      (free.imp fun neither clash => neither (.inr clash)) listed alsoListed
  · intro free
    refine ⟨fun constraint _ => isLegalStep_facets, apart.imp_of_mem ?_⟩
    intro first second listed alsoListed apart one given other alsoGiven excluded
    have clash := (excluded_facets_iff apart).mp ⟨one, given, other, alsoGiven, excluded⟩
    exact clash.elim (free first listed second alsoListed) (free second alsoListed first listed)

end Constraint

namespace SchemaType

variable {base type : SchemaType} {declaration : Declaration} {settings : Settings}

/-- On a type that is not restricted, the restrictions of a step are its facets. -/
theorem restrictions_narrow (unrestricted : base.isRestricted = false)
    (facets : List Restriction) : (base.narrow facets).restrictions = facets := by
  by_cases empty : facets = []
  · rw [narrow, dif_pos empty, empty]
    cases base with
    | builtin known => rfl
    | specified named => rfl
    | restricted base facets nonempty => cases unrestricted
  · rw [narrow, dif_neg empty, restrictions]

/-- **When a declaration adds a legal step.** If decorating a type that is not restricted
succeeds, what the constraints of the declaration add is a legal step if and only if no two
of the constraints limit the same thing. -/
theorem isLegalStep_decorate_iff (unrestricted : base.isRestricted = false)
    (decorated : base.decorate declaration settings = .ok type) :
    ∃ constraints, declaration.constraints settings.filter = .ok constraints ∧
      (Restriction.IsLegalStep type.restrictions ↔
        ∀ first ∈ constraints, ∀ second ∈ constraints,
          ¬ first.Clashes (settings.lengthPolicy.boundsLength base) second) := by
  obtain ⟨constraints, collected, restricted⟩ := bind_eq_ok_iff.mp decorated
  refine ⟨constraints, collected, ?_⟩
  rw [← Except.ok.inj restricted, restrict, restrictions_narrow unrestricted, project]
  exact Constraint.isLegalStep_flatMap_iff (Declaration.increasing_of_constraints collected)

/-- A field for a price, of at most six digits and with bounds. -/
def priceField : Declaration where
  name := "price"
  annotations := [
    { type := ConstraintKind.min.annotationType, values := [("value", .int 1)] },
    { type := ConstraintKind.digits.annotationType
      values := [("integer", .int 4), ("fraction", .int 2)] },
    { type := ConstraintKind.decimalMax.annotationType
      values := [("value", .string "1000"), ("inclusive", .bool false)] }]

/-- Decimal bounds and digits limit different things, so this field becomes a legal step. -/
theorem isLegalStep_priceField :
    (builtin .decimal).isRestricted = false ∧
    ∃ type, (builtin .decimal).decorate priceField {} = .ok type ∧
      type.restrictions = [⟨.maxExclusive, "1000"⟩, ⟨.totalDigits, "6"⟩, ⟨.fractionDigits, "2"⟩,
        ⟨.minInclusive, "1"⟩] ∧
      Restriction.IsLegalStep type.restrictions := by
  have decorated : (builtin .decimal).decorate priceField {} = .ok _ := rfl
  obtain ⟨constraints, collected, legal_iff⟩ := isLegalStep_decorate_iff rfl decorated
  cases collected
  refine ⟨rfl, _, decorated, rfl, legal_iff.mpr ?_⟩
  rintro first listed second alsoListed ⟨⟩ <;> simp at listed alsoListed

/-- A field whose greatest value is given twice. -/
def countField : Declaration where
  name := "count"
  annotations := [
    { type := ConstraintKind.max.annotationType, values := [("value", .int 10)] },
    { type := ConstraintKind.decimalMax.annotationType, values := [("value", .string "5")] }]

/-- Two bounds on the value both become facets, though a schema may have only one. -/
theorem not_isLegalStep_countField :
    (builtin .integer).isRestricted = false ∧
    ∃ type, (builtin .integer).decorate countField {} = .ok type ∧
      type.restrictions = [⟨.maxInclusive, "5"⟩, ⟨.maxInclusive, "10"⟩] ∧
      ¬ Restriction.IsLegalStep type.restrictions := by
  refine ⟨rfl, _, rfl, rfl, ?_⟩
  decide

end SchemaType

end ConstraintFacets
