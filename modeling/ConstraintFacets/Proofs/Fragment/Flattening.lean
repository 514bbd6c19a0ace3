import ConstraintFacets.Proofs.Fragment.Decoding

/-! # What flattening does to the values of a type

Under an interpretation of its facets a step of restriction accepts the values that
satisfy all of its facets, where patterns and enumerated values are alternatives to
each other (`ConstraintFacets.StepAccepts`). A type accepts what all of its layers
accept. A fragment has all layers of a type in one step, so it accepts at least what
the type accepts, but perhaps more: alternatives of different layers become
alternatives of one step. It accepts the same values under every interpretation if
and only if the layers with patterns all have the same patterns, and the layers with
enumerated values the same of these
(`ConstraintFacets.SchemaType.flattening_exact_iff`).
-/

namespace ConstraintFacets

section Interpretation

variable {Value : Type} (accepts : Restriction → Value → Prop)

/-- A value satisfies one of the facets of a kind in a step, if there are any. -/
def SomeAccepts (facet : Facet) (step : List Restriction) (value : Value) : Prop :=
  (∃ restriction ∈ step, restriction.facet = facet) →
    ∃ restriction ∈ step, restriction.facet = facet ∧ accepts restriction value

/-- A value is accepted by one step of restriction. -/
def StepAccepts (step : List Restriction) (value : Value) : Prop :=
  (∀ restriction ∈ step, restriction.facet ≠ .pattern → restriction.facet ≠ .enumeration →
    accepts restriction value) ∧
  SomeAccepts accepts .pattern step value ∧ SomeAccepts accepts .enumeration step value

/-- A value is accepted by every step along the chain of bases of a type. -/
def SchemaType.Accepts (type : SchemaType) (value : Value) : Prop :=
  ∀ layer ∈ type.layers, StepAccepts accepts layer value

end Interpretation

/-- All layers that have facets of a kind have the same ones. -/
def AgreeOn (facet : Facet) (layers : List (List Restriction)) : Prop :=
  ∀ first ∈ layers, ∀ second ∈ layers, (∃ restriction ∈ second, restriction.facet = facet) →
    ∀ restriction ∈ first, restriction.facet = facet → restriction ∈ second

instance (facet : Facet) (layers : List (List Restriction)) : Decidable (AgreeOn facet layers) :=
  inferInstanceAs (Decidable (∀ first ∈ layers, ∀ second ∈ layers,
    (∃ restriction ∈ second, restriction.facet = facet) →
      ∀ restriction ∈ first, restriction.facet = facet → restriction ∈ second))

/-- The layers of a type do not differ in the alternatives that they offer. -/
def SchemaType.HasSameAlternatives (type : SchemaType) : Prop :=
  AgreeOn .pattern type.layers ∧ AgreeOn .enumeration type.layers

instance (type : SchemaType) : Decidable type.HasSameAlternatives :=
  inferInstanceAs (Decidable (AgreeOn .pattern type.layers ∧ AgreeOn .enumeration type.layers))

variable {Value : Type} {accepts : Restriction → Value → Prop} {facet : Facet}
  {layers : List (List Restriction)} {value : Value}

/-- What every layer accepts by some facet of a kind, the layers accept as one. -/
theorem someAccepts_flatten
    (accepted : ∀ layer ∈ layers, SomeAccepts accepts facet layer value) :
    SomeAccepts accepts facet layers.flatten value := by
  intro present
  obtain ⟨restriction, member, ofKind⟩ := present
  obtain ⟨layer, listed, inside⟩ := List.mem_flatten.mp member
  obtain ⟨other, alsoInside, alsoOfKind, satisfied⟩ :=
    accepted layer listed ⟨restriction, inside, ofKind⟩
  refine ⟨other, ?_, alsoOfKind, satisfied⟩
  apply List.mem_flatten.mpr
  exact ⟨layer, listed, alsoInside⟩

/-- If all layers with facets of a kind have the same ones, an alternative of one of
them is one of all. -/
theorem someAccepts_of_flatten (agree : AgreeOn facet layers)
    (accepted : SomeAccepts accepts facet layers.flatten value) :
    ∀ layer ∈ layers, SomeAccepts accepts facet layer value := by
  intro layer listed present
  obtain ⟨restriction, inside, ofKind⟩ := present
  obtain ⟨other, member, alsoOfKind, satisfied⟩ :=
    accepted ⟨restriction, List.mem_flatten.mpr ⟨layer, listed, inside⟩, ofKind⟩
  obtain ⟨origin, alsoListed, alsoInside⟩ := List.mem_flatten.mp member
  have shared : other ∈ layer :=
    agree origin alsoListed layer listed ⟨restriction, inside, ofKind⟩ other alsoInside alsoOfKind
  exact ⟨other, shared, alsoOfKind, satisfied⟩

/-- The interpretation under which a facet is the only one of its kind that is
satisfied. -/
def onlyAccepts (chosen : Restriction) (restriction : Restriction) (_ : Unit) : Prop :=
  restriction.facet = chosen.facet → restriction = chosen

/-- A step that offers a facet accepts what only that facet accepts, and so does one without
the kind. -/
theorem someAccepts_onlyAccepts {chosen : Restriction} {step : List Restriction}
    (offered : (∃ restriction ∈ step, restriction.facet = chosen.facet) → chosen ∈ step)
    (facet : Facet) : SomeAccepts (onlyAccepts chosen) facet step () := by
  intro present
  obtain ⟨restriction, member, ofKind⟩ := present
  by_cases same : restriction.facet = chosen.facet
  · exact ⟨chosen, offered ⟨restriction, member, same⟩, same.symm.trans ofKind, fun _ => rfl⟩
  · exact ⟨restriction, member, ofKind, fun alike => absurd alike same⟩

/-- Under that interpretation a step accepts if it offers the facet among its
alternatives, or has no alternatives of that kind. -/
theorem stepAccepts_onlyAccepts_iff {chosen : Restriction} {step : List Restriction}
    (alternative : chosen.facet = .pattern ∨ chosen.facet = .enumeration) :
    StepAccepts (onlyAccepts chosen) step () ↔
      ((∃ restriction ∈ step, restriction.facet = chosen.facet) → chosen ∈ step) := by
  constructor
  · intro accepted present
    obtain ⟨_, patterns, enumerations⟩ := accepted
    have someAccepted : SomeAccepts (onlyAccepts chosen) chosen.facet step () := by
      rcases alternative with isPattern | isEnumeration
      · rw [isPattern]
        exact patterns
      · rw [isEnumeration]
        exact enumerations
    obtain ⟨restriction, member, sameKind, onlyChosen⟩ := someAccepted present
    exact onlyChosen sameKind ▸ member
  · intro offered
    refine ⟨?_, someAccepts_onlyAccepts offered .pattern, someAccepts_onlyAccepts offered
      .enumeration⟩
    intro restriction _ notPattern notEnumeration sameKind
    rcases alternative with isPattern | isEnumeration
    · exact absurd (sameKind.trans isPattern) notPattern
    · exact absurd (sameKind.trans isEnumeration) notEnumeration

/-- One step with the facets of all layers accepts what all layers accept. -/
theorem stepAccepts_flatten (accepted : ∀ layer ∈ layers, StepAccepts accepts layer value) :
    StepAccepts accepts layers.flatten value := by
  refine ⟨?_, someAccepts_flatten fun layer listed => (accepted layer listed).2.1,
    someAccepts_flatten fun layer listed => (accepted layer listed).2.2⟩
  intro restriction member notPattern notEnumeration
  obtain ⟨layer, listed, inside⟩ := List.mem_flatten.mp member
  exact (accepted layer listed).1 restriction inside notPattern notEnumeration

/-- Layers that agree on patterns and enumerations accept each what they accept as one. -/
theorem stepAccepts_of_flatten (patterns : AgreeOn .pattern layers)
    (enumerations : AgreeOn .enumeration layers)
    (accepted : StepAccepts accepts layers.flatten value) :
    ∀ layer ∈ layers, StepAccepts accepts layer value := by
  intro layer listed
  refine ⟨?_, someAccepts_of_flatten patterns accepted.2.1 layer listed,
    someAccepts_of_flatten enumerations accepted.2.2 layer listed⟩
  intro restriction inside
  apply accepted.1
  exact List.mem_flatten.mpr ⟨layer, listed, inside⟩

/-- If one step with the facets of all layers never accepts more than the layers, then
a facet that is an alternative in one layer is one in every layer that has
alternatives of its kind. -/
theorem agreeOn_of_stepAccepts (alternative : facet = .pattern ∨ facet = .enumeration)
    (exact : ∀ (accepts : Restriction → Unit → Prop), StepAccepts accepts layers.flatten () →
      ∀ layer ∈ layers, StepAccepts accepts layer ()) :
    AgreeOn facet layers := by
  intro first listed second alsoListed present chosen inside ofKind
  subst ofKind
  -- The merged step offers the chosen facet, so it accepts; then so does every layer.
  have merged : StepAccepts (onlyAccepts chosen) layers.flatten () := by
    apply (stepAccepts_onlyAccepts_iff alternative).mpr
    intro _
    exact List.mem_flatten.mpr ⟨first, listed, inside⟩
  exact (stepAccepts_onlyAccepts_iff alternative).mp (exact _ merged second alsoListed) present

namespace SchemaType

/-- **Flattening and the values of a type.** The restriction in the fragment of a
simple type accepts every value that the type accepts. It accepts no other value,
under any interpretation of the facets, if and only if the layers of the type do not
differ in the alternatives that they offer. -/
theorem flattening_exact_iff {type : SchemaType} (simple : type.isSimple) (name : Option String) :
    ∃ text written, type.fragment name = .ok text ∧
      WrittenType.read? Markup.unescape? text = some written ∧
      (∀ (Value : Type) (accepts : Restriction → Value → Prop) (value : Value),
        type.Accepts accepts value → StepAccepts accepts written.facets value) ∧
      ((∀ (Value : Type) (accepts : Restriction → Value → Prop) (value : Value),
        StepAccepts accepts written.facets value ↔ type.Accepts accepts value) ↔
          type.HasSameAlternatives) := by
  have written := fragment_of_isSimple simple name
  refine ⟨_, _, written, read?_of_fragment written, ?_, ?_⟩
  · intro Value accepts value accepted
    rw [allRestrictions_eq_flatten]
    exact stepAccepts_flatten accepted
  · rw [allRestrictions_eq_flatten]
    constructor
    · intro exact
      have never (accepts : Restriction → Unit → Prop) :
          StepAccepts accepts type.layers.flatten () → type.Accepts accepts () :=
        (exact Unit accepts ()).mp
      exact ⟨agreeOn_of_stepAccepts (.inl rfl) never, agreeOn_of_stepAccepts (.inr rfl) never⟩
    · intro same Value accepts value
      obtain ⟨patterns, enumerations⟩ := same
      exact ⟨stepAccepts_of_flatten patterns enumerations, stepAccepts_flatten⟩

/-- Texts of capital letters, and among them those that are not long. -/
def shortCapitals : SchemaType :=
  restricted (restricted (builtin .string) [⟨.pattern, "[A-Z]+"⟩] (List.cons_ne_nil _ _))
    [⟨.maxLength, "8"⟩] (List.cons_ne_nil _ _)

/-- Two layers of which only one has patterns are flattened without loss. -/
theorem flattening_exact_shortCapitals :
    shortCapitals.isSimple = true ∧
      ∃ text written, shortCapitals.fragment none = .ok text ∧
        WrittenType.read? Markup.unescape? text = some written ∧
        ∀ (Value : Type) (accepts : Restriction → Value → Prop) (value : Value),
          StepAccepts accepts written.facets value ↔ shortCapitals.Accepts accepts value := by
  have same : shortCapitals.HasSameAlternatives := by decide
  obtain ⟨text, written, isText, isRead, _, exact_iff⟩ :=
    flattening_exact_iff (show shortCapitals.isSimple from rfl) none
  exact ⟨rfl, text, written, isText, isRead, exact_iff.mpr same⟩

/-- Two enumerated texts, and among them the first one. -/
def narrowedEnumeration : SchemaType :=
  restricted
    (restricted (builtin .string) [⟨.enumeration, "a"⟩, ⟨.enumeration, "b"⟩] (List.cons_ne_nil _ _))
    [⟨.enumeration, "a"⟩] (List.cons_ne_nil _ _)

/-- If an enumeration is narrowed, the fragment still accepts the values that were
taken out. -/
theorem fragment_narrowedEnumeration_accepts_more :
    ∃ text written, narrowedEnumeration.fragment none = .ok text ∧
      WrittenType.read? Markup.unescape? text = some written ∧
      StepAccepts (fun restriction value => restriction.value = value) written.facets "b" ∧
      ¬ narrowedEnumeration.Accepts (fun restriction value => restriction.value = value) "b" := by
  have written : narrowedEnumeration.fragment none = .ok _ := fragment_of_isSimple rfl none
  refine ⟨_, _, written, read?_of_fragment written, ?_, ?_⟩
  · simp [StepAccepts, SomeAccepts, narrowedEnumeration, allRestrictions]
  · intro accepted
    have outer : [⟨.enumeration, "a"⟩] ∈ narrowedEnumeration.layers := by
      simp [narrowedEnumeration, layers]
    obtain ⟨restriction, member, _, satisfied⟩ :=
      (accepted _ outer).2.2 ⟨_, List.mem_singleton_self _, rfl⟩
    rw [List.mem_singleton.mp member] at satisfied
    exact absurd satisfied (by decide)

end SchemaType

end ConstraintFacets
