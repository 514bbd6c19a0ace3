import ConstraintFacets.Fragment
import ConstraintFacets.Proofs.SchemaType.Narrowing

/-! # Specified types in place of built-in ones

A specified type may have the name of a built-in type. It then stands in for it, and so do
restrictions of it by the same facets (`ConstraintFacets.SchemaType.StandsInFor`): whatever
can be asked of the one type has the same answer for the other, but for one thing. Upper and
lower bounds limit the length on some built-in types, and never on a specified type. A step
of restriction tells the two apart just if it has such a bound while the built-in type is
not restricted yet (`ConstraintFacets.SchemaType.StandsInFor.facetsOf_eq_iff`). A run
without such a step keeps the one type standing in for the other
(`ConstraintFacets.SchemaType.StandsInFor.narrowAll`).
-/

namespace ConstraintFacets

/-- A constraint is an upper or a lower bound. -/
def Constraint.IsBound (constraint : Constraint) : Prop :=
  constraint.kind = .max ∨ constraint.kind = .min

/-- A step has an upper or a lower bound. -/
def NarrowingStep.HasBound (step : NarrowingStep) : Prop :=
  ∃ constraint ∈ step.constraints, constraint.IsBound

namespace Constraint

variable {constraint : Constraint}

/-- Whether bounds limit the length does not change how many facets there are. -/
theorem length_facets (constraint : Constraint) :
    (constraint.facets true).length = (constraint.facets false).length := by
  cases constraint <;> rfl

/-- The facets of a constraint depend on what bounds limit just if it is a bound. -/
theorem facets_eq_facets_iff :
    constraint.facets false = constraint.facets true ↔ ¬ constraint.IsBound := by
  cases constraint <;> simp [facets, IsBound, kind]

/-- The facets of constraints depend on what bounds limit just if there is a bound among them. -/
theorem flatMap_facets_eq_iff {constraints : List Constraint} :
    constraints.flatMap (facets false) = constraints.flatMap (facets true) ↔
      ¬ ∃ constraint ∈ constraints, constraint.IsBound := by
  induction constraints with
  | nil => simp
  | cons constraint rest ih =>
      have split : (constraint :: rest).flatMap (facets false) =
            (constraint :: rest).flatMap (facets true) ↔
          constraint.facets false = constraint.facets true ∧
            rest.flatMap (facets false) = rest.flatMap (facets true) := by
        rw [List.flatMap_cons, List.flatMap_cons]
        constructor
        · exact fun same => List.append_inj same constraint.length_facets.symm
        · rintro ⟨first, others⟩
          rw [first, others]
      rw [split, facets_eq_facets_iff, ih]
      simp only [List.mem_cons, exists_eq_or_imp, not_or]

end Constraint

/-- No two built-in types have the same name. -/
theorem BuiltinType.ofQName?_qualifiedName (known : BuiltinType) :
    ofQName? known.qualifiedName = some known := by
  cases known <;> rfl

/-- A specified type with the name of a built-in one is recognized as such. -/
theorem SpecifiedType.builtin?_of_sameName {type : SpecifiedType} {known : BuiltinType}
    (sameName : type.qualifiedName = known.qualifiedName) : type.builtin? = some known := by
  rw [builtin?, sameName, BuiltinType.ofQName?_qualifiedName]

namespace SchemaType

/-- One type stands in for another one: it is a specified type with the name of a simple
built-in type, or both are restrictions by the same facets of types that do. -/
inductive StandsInFor : SchemaType → SchemaType → Prop
  | sameName {type : SpecifiedType} {known : BuiltinType} (simple : known.isSimple)
      (named : type.qualifiedName = known.qualifiedName) :
      StandsInFor (specified type) (builtin known)
  | sameFacets {type other : SchemaType} (bases : StandsInFor type other)
      {facets : List Restriction} (nonempty : facets ≠ []) :
      StandsInFor (restricted type facets nonempty) (restricted other facets nonempty)

namespace StandsInFor

variable {type other : SchemaType} {step : NarrowingStep}

theorem qualifiedName_eq (stands : type.StandsInFor other) :
    type.qualifiedName = other.qualifiedName := by
  induction stands with
  | sameName simple named => exact named
  | sameFacets bases nonempty ih => exact ih

theorem isSimple_eq (stands : type.StandsInFor other) : type.isSimple = other.isSimple := by
  induction stands with
  | sameName simple named => exact simple.symm
  | sameFacets bases nonempty ih => exact ih

/-- A type and its stand-in admit the same facets. -/
theorem admits_eq (stands : type.StandsInFor other) (facet : Facet) :
    type.admits facet = other.admits facet := by
  induction stands with
  | sameName simple named =>
      simp only [admits, SpecifiedType.admits, SpecifiedType.builtin?_of_sameName named]
  | sameFacets bases nonempty ih => exact ih

theorem restrictions_eq (stands : type.StandsInFor other) :
    type.restrictions = other.restrictions := by
  cases stands <;> rfl

/-- A type and its stand-in have the same facets in all. -/
theorem allRestrictions_eq (stands : type.StandsInFor other) :
    type.allRestrictions = other.allRestrictions := by
  induction stands with
  | sameName simple named => rfl
  | sameFacets bases nonempty ih => rw [allRestrictions, allRestrictions, ih]

/-- The same facets of a type and of its stand-in are not admitted. -/
theorem inapplicable_eq (stands : type.StandsInFor other) :
    type.inapplicable = other.inapplicable := by
  simp only [inapplicable, stands.restrictions_eq, stands.admits_eq]

/-- A fragment is made of the name and the facets, for a type that is simple. -/
theorem fragment_eq (stands : type.StandsInFor other) (name : Option String) :
    type.fragment name = other.fragment name := by
  simp only [fragment, tags, restrictionTags, stands.isSimple_eq, stands.qualifiedName_eq,
    stands.allRestrictions_eq]

/-- On a stand-in, bounds limit the value under every policy. -/
theorem boundsLength_eq_false (stands : type.StandsInFor other) (policy : LengthPolicy) :
    policy.boundsLength type = false := by
  cases stands <;> rfl

/-- A step adds the same facets unless it has a bound that limits the length on the type
that is stood in for. -/
theorem facetsOf_eq_iff (stands : type.StandsInFor other) :
    type.facetsOf step = other.facetsOf step ↔
      ¬ (step.policy.boundsLength other = true ∧ step.HasBound) := by
  rw [facetsOf, facetsOf, project, project, stands.boundsLength_eq_false]
  cases lengths : step.policy.boundsLength other with
  | false => simp
  | true =>
      rw [Constraint.flatMap_facets_eq_iff, NarrowingStep.HasBound]
      simp only [true_and]

/-- After a step that has the same facets on both, the one type stands in for the other again. -/
theorem narrowBy (stands : type.StandsInFor other)
    (same : type.facetsOf step = other.facetsOf step) :
    (type.narrowBy step).StandsInFor (other.narrowBy step) := by
  by_cases vacuous : step.IsVacuous
  · rw [narrowBy_of_vacuous vacuous, narrowBy_of_vacuous vacuous]
    exact stands
  · obtain ⟨nonempty, narrowed⟩ := type.narrowBy_of_not_vacuous vacuous
    obtain ⟨alsoNonempty, alsoNarrowed⟩ := other.narrowBy_of_not_vacuous vacuous
    rw [narrowed, alsoNarrowed]
    simp only [same]
    exact stands.sameFacets alsoNonempty

/-- After a run that has the same facets on both, the one type stands in for the other again. -/
theorem narrowAll {steps : List NarrowingStep} (stands : type.StandsInFor other)
    (same : type.facetsAlong steps = other.facetsAlong steps) :
    (type.narrowAll steps).StandsInFor (other.narrowAll steps) := by
  induction steps generalizing type other with
  | nil => exact stands
  | cons step rest ih =>
      obtain ⟨sameFirst, sameRest⟩ := List.cons.inj same
      exact ih (stands.narrowBy sameFirst) sameRest

/-- The steps of a run add the same facets just if none of them has a bound that limits the
length on the type that the run has come to. -/
theorem facetsAlong_eq_iff {steps : List NarrowingStep} (stands : type.StandsInFor other) :
    type.facetsAlong steps = other.facetsAlong steps ↔
      ∀ before step after, steps = before ++ step :: after →
        ¬ (step.policy.boundsLength (other.narrowAll before) = true ∧ step.HasBound) := by
  induction steps generalizing type other with
  | nil => simp [facetsAlong]
  | cons first rest ih =>
      rw [facetsAlong, facetsAlong, List.cons.injEq]
      constructor
      · rintro ⟨sameFirst, sameRest⟩ before step after split
        cases before with
        | nil =>
            cases split
            exact stands.facetsOf_eq_iff.mp sameFirst
        | cons _ earlier =>
            cases split
            exact (ih (stands.narrowBy sameFirst)).mp sameRest earlier step after rfl
      · intro free
        have sameFirst := stands.facetsOf_eq_iff.mpr (free [] first rest rfl)
        refine ⟨sameFirst, (ih (stands.narrowBy sameFirst)).mpr ?_⟩
        rintro before step after rfl
        exact free (first :: before) step after rfl

end StandsInFor

/-- **A specified type with the name of a built-in one.** For every simple built-in type
there is a specified type with its name. A list of constraints becomes the same facets on
both unless it has an upper or lower bound that limits the length on the built-in type, and
then it does not. Along a run the steps add the same facets just if no step has a bound that
limits the length on what the run has made of the built-in type, and if they do, both runs
end in types with the same facets, all of them and those not admitted, which admit the same
facets and are written as the same text. -/
theorem specified_stands_in {known : BuiltinType} (simple : known.isSimple) :
    ∃ type, SpecifiedType.new known.localName known.uri = .ok type ∧
      (∀ constraints policy,
        (specified type).project constraints policy =
            (builtin known).project constraints policy ↔
          ¬ (policy.boundsLength (builtin known) = true ∧
            ∃ constraint ∈ constraints, constraint.kind = .max ∨ constraint.kind = .min)) ∧
      ∀ steps,
        ((specified type).facetsAlong steps = (builtin known).facetsAlong steps ↔
          ∀ before step after, steps = before ++ step :: after →
            ¬ (step.policy.boundsLength ((builtin known).narrowAll before) = true ∧
              ∃ constraint ∈ step.constraints,
                constraint.kind = .max ∨ constraint.kind = .min)) ∧
        ((specified type).facetsAlong steps = (builtin known).facetsAlong steps →
          ((specified type).narrowAll steps).allRestrictions =
              ((builtin known).narrowAll steps).allRestrictions ∧
          ((specified type).narrowAll steps).inapplicable =
              ((builtin known).narrowAll steps).inapplicable ∧
          (∀ facet, ((specified type).narrowAll steps).admits facet =
              ((builtin known).narrowAll steps).admits facet) ∧
          ∀ name, ((specified type).narrowAll steps).fragment name =
              ((builtin known).narrowAll steps).fragment name) := by
  have valid : NCName.isValid known.localName := SchemaType.isValid_localName (builtin known)
  have stands : (specified ⟨known.localName, known.uri, valid⟩).StandsInFor (builtin known) :=
    .sameName simple rfl
  refine ⟨_, dif_pos valid, fun constraints policy => ?_, fun steps => ⟨?_, fun same => ?_⟩⟩
  · exact @StandsInFor.facetsOf_eq_iff _ _ ⟨constraints, policy⟩ stands
  · exact stands.facetsAlong_eq_iff
  · have ends := stands.narrowAll same
    exact ⟨ends.allRestrictions_eq, ends.inapplicable_eq, ends.admits_eq, ends.fragment_eq⟩

/-- A size first, and an upper bound when the type is restricted already. -/
def sizeThenBound : List NarrowingStep :=
  [⟨[.notNull, .size 8 1], .strict⟩, ⟨[.max 3], .strict⟩]

/-- The size comes first, so the bound behind it tells the two types no longer apart. -/
theorem specified_stands_in_string :
    BuiltinType.string.isSimple = true ∧
    ∃ type, SpecifiedType.new "string" schemaNamespace = .ok type ∧
      (specified type).project [.max 3] .strict ≠ (builtin .string).project [.max 3] .strict ∧
      (specified type).facetsAlong sizeThenBound = (builtin .string).facetsAlong sizeThenBound ∧
      ((specified type).narrowAll sizeThenBound).allRestrictions =
        [⟨.maxLength, "8"⟩, ⟨.minLength, "1"⟩, ⟨.maxInclusive, "3"⟩] ∧
      ((specified type).narrowAll sizeThenBound).inapplicable = [⟨.maxInclusive, "3"⟩] ∧
      ((specified type).narrowAll sizeThenBound).fragment none =
        ((builtin .string).narrowAll sizeThenBound).fragment none := by
  obtain ⟨type, created, projects_iff, runs⟩ := @specified_stands_in .string rfl
  have same : (specified type).facetsAlong sizeThenBound =
      (builtin .string).facetsAlong sizeThenBound := rfl
  obtain ⟨facets, inapplicable, -, fragments⟩ := (runs sizeThenBound).2 same
  refine ⟨rfl, type, created, ?_, same, facets, inapplicable, fragments none⟩
  intro alike
  exact (projects_iff [.max 3] .strict).mp alike ⟨rfl, .max 3, by simp, .inl rfl⟩

end SchemaType

end ConstraintFacets
