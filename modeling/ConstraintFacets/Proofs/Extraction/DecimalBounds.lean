import ConstraintFacets.Projection
import ConstraintFacets.Proofs.Extraction.Collected
import ConstraintFacets.Proofs.Text.DecimalGrammar

/-! # Decimal bounds

The annotations for an upper and for a lower decimal bound give the bound as a text. Only
decimal literals are taken, and they are kept as they are: what is written in the annotation
is what the description says and what becomes the value of the facet. With any other text the
annotation is unusable (`ConstraintFacets.Declaration.StatesBound.isRead_iff`).
-/

namespace ConstraintFacets

/-- The side on which a bound limits a value. -/
inductive BoundSide where
  | upper
  | lower

namespace BoundSide

/-- The kind of the constraint. -/
def kind : BoundSide → ConstraintKind
  | upper => .decimalMax
  | lower => .decimalMin

/-- The constraint with a literal for its bound. -/
def bound (literal : String) (inclusive : Bool) : BoundSide → Constraint
  | upper => .decimalMax literal inclusive
  | lower => .decimalMin literal inclusive

/-- The beginning of the description. -/
def words : BoundSide → String
  | upper => "max: "
  | lower => "min: "

/-- The facet for a bound that is allowed itself, or is not. -/
def facet (inclusive : Bool) : BoundSide → Facet
  | upper => if inclusive then .maxInclusive else .maxExclusive
  | lower => if inclusive then .minInclusive else .minExclusive

variable (side : BoundSide) (literal : String) (inclusive : Bool)

@[simp] theorem kind_bound : (side.bound literal inclusive).kind = side.kind := by
  cases side <;> rfl

/-- The description repeats the literal, and says so if the bound itself is not allowed. -/
theorem description_bound : (side.bound literal inclusive).description =
    side.words ++ literal ++ if inclusive then "" else " (exclusive)" := by
  cases side <;> rfl

/-- A bound has one facet, with the literal as its value, whether or not bounds limit the
length. -/
theorem facets_bound (boundsLength : Bool) :
    (side.bound literal inclusive).facets boundsLength = [⟨side.facet inclusive, literal⟩] := by
  cases side <;> rfl

end BoundSide

namespace Declaration

/-- An active annotation gives a text for the bound on a side, and says whether the bound
itself is allowed, or leaves that open. -/
structure StatesBound (declaration : Declaration) (filter : GroupFilter) (side : BoundSide)
    (use : AnnotationUse) (literal : String) (inclusive : Bool) : Prop where
  presents : declaration.Presents filter side.kind use
  given : use.value? "value" = some (.string literal)
  usable : use.HoldsOr "inclusive" true .bool inclusive

/-- The error of a declaration with a text for a bound that is no decimal literal. -/
def notDecimal (declaration : Declaration) (side : BoundSide) : AnnotationError where
  fault := .notDecimal
  annotationType := some side.kind.annotationType
  attributeName := some "value"
  declaration := some declaration.name

namespace StatesBound

variable {declaration : Declaration} {filter : GroupFilter} {side : BoundSide}
  {use : AnnotationUse} {literal : String} {inclusive : Bool} {constraints : List Constraint}
  (states : declaration.StatesBound filter side use literal inclusive)
include states

/-- A literal is read as the bound, as it is spelled. -/
theorem readConstraint_of_literal (isLiteral : DecimalLiteral.Literal literal.toList) :
    declaration.readConstraint side.kind use = .ok (side.bound literal inclusive) := by
  have given : use.value? "value" = some (.string literal) ∧
      DecimalLiteral.isLiteral literal.toList :=
    ⟨states.given, DecimalLiteral.isLiteral_iff.mpr isLiteral⟩
  refine readConstraint_eq_ok_iff.mpr ⟨side.kind_bound literal inclusive, ?_⟩
  cases side <;> exact ⟨given, states.usable⟩

/-- Any other text is reported as no decimal number. -/
theorem firstError?_of_not_literal (malformed : ¬ DecimalLiteral.Literal literal.toList) :
    side.kind.firstError? use = some ⟨"value", .notDecimal⟩ := by
  have fault : AttributeRule.fault? ⟨"value", .decimal, true⟩ use = some .notDecimal := by
    rw [← DecimalLiteral.isLiteral_iff] at malformed
    simp only [AttributeRule.fault?, states.given, AttributeForm.fault?, if_neg malformed]
  cases side <;>
    simp only [BoundSide.kind, ConstraintKind.firstError?, ConstraintKind.attributes,
      List.findSome?_cons, AttributeRule.error?, fault, Option.map_some]

/-- The error is on the attribute for the bound. -/
theorem readConstraint_of_not_literal (malformed : ¬ DecimalLiteral.Literal literal.toList) :
    declaration.readConstraint side.kind use = .error (declaration.notDecimal side) := by
  refine readConstraint_eq_error_iff.mpr ⟨_, states.firstError?_of_not_literal malformed, ?_⟩
  rw [notDecimal, states.presents.2.1]

/-- A bound is read just if its text is a decimal literal. -/
theorem isRead_iff_literal :
    (∃ constraint, declaration.readConstraint side.kind use = .ok constraint) ↔
      DecimalLiteral.Literal literal.toList := by
  constructor
  · rintro ⟨constraint, read⟩
    by_contra malformed
    rw [states.readConstraint_of_not_literal malformed] at read
    cases read
  · exact fun isLiteral => ⟨_, states.readConstraint_of_literal isLiteral⟩

section Collected

variable (absent : ¬ ∃ null, declaration.Presents filter .null null)
include absent

/-- Where there are constraints, the text is a literal and the bound is among them. -/
theorem mem_constraints (collected : declaration.constraints filter = .ok constraints) :
    DecimalLiteral.Literal literal.toList ∧ side.bound literal inclusive ∈ constraints := by
  rcases collects_or_null_of_constraints collected with ⟨present, -⟩ | ⟨-, collects⟩
  · exact absurd present absent
  · have shown := (collects.complete side.kind).mpr ⟨use, states.presents⟩
    obtain ⟨constraint, listed, ofKind⟩ := List.mem_map.mp shown
    have carries := collects.carried constraint listed use (ofKind ▸ states.presents)
    have read : declaration.readConstraint side.kind use = .ok constraint :=
      readConstraint_eq_ok_iff.mpr ⟨ofKind, carries⟩
    have isLiteral := states.isRead_iff_literal.mp ⟨constraint, read⟩
    have same : side.bound literal inclusive = constraint :=
      Except.ok.inj ((states.readConstraint_of_literal isLiteral).symm.trans read)
    exact ⟨isLiteral, same ▸ listed⟩

/-- A text that is no literal makes collecting fail, unless a lesser kind does so before. -/
theorem constraints_of_not_literal
    (below : ∀ kind < side.kind, ∀ other, declaration.Presents filter kind other →
      other.IsUsable kind) (malformed : ¬ DecimalLiteral.Literal literal.toList) :
    declaration.constraints filter = .error (declaration.notDecimal side) :=
  constraints_of_leastFault absent
    ⟨⟨use, states.presents, states.firstError?_of_not_literal malformed⟩, below⟩

end Collected

/-- A literal does not stand in the way of collecting. -/
theorem exists_constraints_of_literal
    (others : ∀ kind other, kind ≠ side.kind → declaration.Presents filter kind other →
      other.IsUsable kind) (isLiteral : DecimalLiteral.Literal literal.toList) :
    ∃ constraints, declaration.constraints filter = .ok constraints := by
  apply exists_constraints_of_usable
  intro kind other presents
  by_cases own : kind = side.kind
  · subst own
    rw [presents.eq states.presents]
    exact isUsable_of_readConstraint (states.readConstraint_of_literal isLiteral)
  · exact others kind other own presents

/-- **Decimal bounds.** The annotation can be read if and only if its text is a decimal
literal. The constraint then has this literal as it is, and so have its description and its
only facet. With any other text the error is on the attribute for the bound. The same is seen
among the constraints of the declaration, unless it must be null: if there are any, the text
is a literal, and the bound is one of them; a literal does not keep the other annotations from
being read, and any other text is reported unless an annotation of a smaller kind is. -/
theorem isRead_iff :
    ((∃ constraint, declaration.readConstraint side.kind use = .ok constraint) ↔
      DecimalLiteral.Literal literal.toList) ∧
    (DecimalLiteral.Literal literal.toList →
      declaration.readConstraint side.kind use = .ok (side.bound literal inclusive)) ∧
    (¬ DecimalLiteral.Literal literal.toList →
      declaration.readConstraint side.kind use = .error (declaration.notDecimal side)) ∧
    (side.bound literal inclusive).description =
      side.words ++ literal ++ (if inclusive then "" else " (exclusive)") ∧
    (∀ boundsLength, (side.bound literal inclusive).facets boundsLength =
      [⟨side.facet inclusive, literal⟩]) ∧
    ((¬ ∃ null, declaration.Presents filter .null null) →
      (∀ constraints, declaration.constraints filter = .ok constraints →
        DecimalLiteral.Literal literal.toList ∧ side.bound literal inclusive ∈ constraints ∧
        ∀ base policy, ⟨side.facet inclusive, literal⟩ ∈
          SchemaType.project base constraints policy) ∧
      ((∀ kind other, kind ≠ side.kind → declaration.Presents filter kind other →
          other.IsUsable kind) → DecimalLiteral.Literal literal.toList →
        ∃ constraints, declaration.constraints filter = .ok constraints) ∧
      ((∀ kind < side.kind, ∀ other, declaration.Presents filter kind other →
          other.IsUsable kind) → ¬ DecimalLiteral.Literal literal.toList →
        declaration.constraints filter = .error (declaration.notDecimal side))) := by
  refine ⟨states.isRead_iff_literal, states.readConstraint_of_literal,
    states.readConstraint_of_not_literal, side.description_bound literal inclusive,
    side.facets_bound literal inclusive, fun absent => ⟨fun constraints collected => ?_,
      states.exists_constraints_of_literal, states.constraints_of_not_literal absent⟩⟩
  obtain ⟨isLiteral, listed⟩ := states.mem_constraints absent collected
  refine ⟨isLiteral, listed, fun base policy => List.mem_flatMap.mpr ⟨_, listed, ?_⟩⟩
  rw [side.facets_bound]
  exact List.mem_singleton_self _

end StatesBound

/-- A field with an upper decimal bound that is not allowed itself. -/
def amountField (literal : String) : Declaration where
  name := "amount"
  annotations := [
    { type := ConstraintKind.decimalMax.annotationType
      values := [("value", .string literal), ("inclusive", .bool false)] }]

/-- A bound is taken at any magnitude, in the words of the annotation. -/
theorem isRead_amountField :
    ∃ use, (amountField "1E+400").StatesBound (.ignoring []) .upper use "1E+400" false ∧
      DecimalLiteral.Literal "1E+400".toList ∧
      (amountField "1E+400").readConstraint .decimalMax use = .ok (.decimalMax "1E+400" false) := by
  have states : (amountField "1E+400").StatesBound (.ignoring []) .upper _ "1E+400" false :=
    ⟨active?_eq_some_iff.mp rfl, rfl, .inl rfl⟩
  have isLiteral : DecimalLiteral.Literal "1E+400".toList :=
    DecimalLiteral.isLiteral_iff.mp (by decide)
  obtain ⟨-, read, -⟩ := states.isRead_iff
  exact ⟨_, states, isLiteral, read isLiteral⟩

end Declaration

end ConstraintFacets
