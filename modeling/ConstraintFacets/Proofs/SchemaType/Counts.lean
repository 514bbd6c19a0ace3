import ConstraintFacets.Json.RoundTrip
import ConstraintFacets.Projection
import ConstraintFacets.Proofs.Extraction.Collected
import ConstraintFacets.Proofs.SchemaType.Narrowing
import ConstraintFacets.Text.Numeral
import Mathlib.Data.List.Nodup

/-! # Facets that count

The least and the greatest length and the numbers of digits are counts: in a schema their
values are decimal literals of natural numbers, and the digits behind the point are among all
digits. What a declaration adds to a type has a literal in each of these facets, of the number
that the attributes of a constraint ask for (`ConstraintFacets.Constraint.AsksFor`). Attributes
are integers, negative ones included, and are passed on as they are: the facets carry counts if
and only if the attributes behind them are not negative
(`ConstraintFacets.SchemaType.carryCounts_decorate_iff`).
-/

namespace ConstraintFacets

namespace Integer

/-- The natural number that one or more digits stand for. -/
def ofRun? (run : List Char) : Option Nat :=
  if DecimalLiteral.isDigits run then some (ofDigits run) else none

/-- The integer that a decimal literal stands for: digits, with or without a sign before
them. -/
def ofLiteral? : List Char → Option Int
  | '-' :: run => (ofRun? run).map fun value => -(value : Int)
  | '+' :: run => (ofRun? run).map fun value => (value : Int)
  | run => (ofRun? run).map fun value => (value : Int)

/-- The digits of a natural number stand for that number. -/
theorem ofRun?_digits (value : Nat) : ofRun? (digits value) = some value := by
  have areDigits : DecimalLiteral.isDigits (digits value) = true := by
    rw [DecimalLiteral.isDigits, Bool.and_eq_true, List.all_eq_true, Bool.not_eq_true',
      List.isEmpty_eq_false_iff]
    exact ⟨Json.digits_ne_nil value, fun c member => Json.isDigit_of_mem_digits value member⟩
  rw [ofRun?, if_pos areDigits, ofDigits_digits]

/-- What is written for an integer is a literal of it. -/
theorem ofLiteral?_render (value : Int) : ofLiteral? (render value) = some value := by
  cases value with
  | ofNat value =>
    have digit {c : Char} {run : List Char} (spelled : digits value = c :: run) : c.isDigit :=
      Json.isDigit_of_mem_digits value (spelled ▸ List.mem_cons_self)
    rw [render]
    unfold ofLiteral?
    -- What is written begins with a digit, so there is no sign to take off.
    split
    · exact Bool.noConfusion (digit ‹_›)
    · exact Bool.noConfusion (digit ‹_›)
    · rw [ofRun?_digits]
      rfl
  | negSucc value =>
    rw [render, ofLiteral?, ofRun?_digits]
    rfl

end Integer

/-- The facets whose values are counts. -/
def Facet.counts : List Facet :=
  [minLength, maxLength, totalDigits, fractionDigits]

namespace Restriction

/-- The integer that the value of a facet stands for. -/
def number? (restriction : Restriction) : Option Int :=
  Integer.ofLiteral? restriction.value.toList

/-- The value of a facet is a literal of a natural number. -/
def IsCount (restriction : Restriction) : Prop :=
  ∃ count : Nat, restriction.number? = some (count : Int)

/-- Facets carry counts: every facet that counts does, and no more digits are to stand behind
the point than there are digits in all. -/
structure CarryCounts (facets : List Restriction) : Prop where
  isCount : ∀ restriction ∈ facets, restriction.facet ∈ Facet.counts → restriction.IsCount
  fraction_le : ∀ total ∈ facets, ∀ fraction ∈ facets, total.facet = .totalDigits →
    fraction.facet = .fractionDigits → ∃ most behind, total.number? = some most ∧
      fraction.number? = some behind ∧ behind ≤ most

variable {restriction : Restriction} {number : Int}

theorem number?_text (facet : Facet) (number : Int) :
    (Restriction.mk facet (Integer.text number)).number? = some number := by
  rw [number?, Integer.text, String.toList_ofList, Integer.ofLiteral?_render]

/-- An integer is a count just if it is not negative. -/
theorem isCount_iff (given : restriction.number? = some number) :
    restriction.IsCount ↔ 0 ≤ number := by
  constructor
  · intro isCount
    obtain ⟨count, same⟩ := isCount
    have isNumber := Option.some.inj (given.symm.trans same)
    omega
  · intro natural
    exact ⟨number.toNat, by rw [given, Int.toNat_of_nonneg natural]⟩

end Restriction

namespace Constraint

/-- A constraint asks for a number in a facet that counts. A size asks for a least length only
if that is positive, and bounds ask for lengths where they limit the length. -/
inductive AsksFor (boundsLength : Bool) : Constraint → Facet → Int → Prop where
  | total {integer fraction : Int32} : AsksFor boundsLength (digits integer fraction)
      .totalDigits (integer.toInt + fraction.toInt)
  | fraction {integer fraction : Int32} : AsksFor boundsLength (digits integer fraction)
      .fractionDigits fraction.toInt
  | longest {value : Int64} (lengths : boundsLength = true) :
      AsksFor boundsLength (max value) .maxLength value.toInt
  | shortest {value : Int64} (lengths : boundsLength = true) :
      AsksFor boundsLength (min value) .minLength value.toInt
  | most {most least : Int32} : AsksFor boundsLength (size most least) .maxLength most.toInt
  | least {most least : Int32} (positive : 0 < least.toInt) :
      AsksFor boundsLength (size most least) .minLength least.toInt

/-- The attributes of a constraint that become counts are not negative. -/
def CanCount (boundsLength : Bool) : Constraint → Prop
  | digits integer fraction => 0 ≤ integer.toInt ∧ 0 ≤ fraction.toInt
  | max value | min value => boundsLength = true → 0 ≤ value.toInt
  | size most _ => 0 ≤ most.toInt
  | _ => True

variable {boundsLength : Bool} {constraint : Constraint} {restriction : Restriction}
  {facet : Facet} {number : Int}

/-- A facet that counts has the literal of a number that its constraint asks for. -/
theorem exists_asksFor_of_mem_facets (given : restriction ∈ constraint.facets boundsLength)
    (counts : restriction.facet ∈ Facet.counts) :
    ∃ number, constraint.AsksFor boundsLength restriction.facet number ∧
      restriction.number? = some number := by
  cases constraint with
  | null | notNull | future | past => cases given
  | isFalse | isTrue | regexp =>
    rw [List.mem_singleton.mp given] at counts
    simp [Facet.counts] at counts
  | decimalMax literal inclusive | decimalMin literal inclusive =>
    rw [List.mem_singleton.mp given] at counts
    cases inclusive <;> simp [Facet.counts] at counts
  | digits integer fraction =>
    rcases List.mem_cons.mp given with rfl | given
    · exact ⟨_, .total, Restriction.number?_text _ _⟩
    · rw [List.mem_singleton.mp given]
      exact ⟨_, .fraction, Restriction.number?_text _ _⟩
  | max value =>
    rw [List.mem_singleton.mp given] at counts ⊢
    cases boundsLength with
    | false => simp [Facet.counts] at counts
    | true => exact ⟨_, .longest rfl, Restriction.number?_text _ _⟩
  | min value =>
    rw [List.mem_singleton.mp given] at counts ⊢
    cases boundsLength with
    | false => simp [Facet.counts] at counts
    | true => exact ⟨_, .shortest rfl, Restriction.number?_text _ _⟩
  | size most least =>
    rcases List.mem_cons.mp given with rfl | given
    · exact ⟨_, .most, Restriction.number?_text _ _⟩
    · split at given
      · rename_i positive
        rw [List.mem_singleton.mp given]
        exact ⟨_, .least positive, Restriction.number?_text _ _⟩
      · cases given

/-- What a constraint asks for becomes a facet that counts. -/
theorem AsksFor.mem_facets (asks : constraint.AsksFor boundsLength facet number) :
    ⟨facet, Integer.text number⟩ ∈ constraint.facets boundsLength ∧ facet ∈ Facet.counts := by
  cases asks with
  | total | fraction | most => simp [facets, Facet.counts]
  | longest lengths | shortest lengths =>
    subst lengths
    simp [facets, Facet.counts]
  | least positive => simp [facets, Facet.counts, positive]

/-- What a constraint asks for is a count if its attributes are not negative. -/
theorem AsksFor.nonneg (asks : constraint.AsksFor boundsLength facet number)
    (canCount : constraint.CanCount boundsLength) : 0 ≤ number := by
  cases asks with
  | total => exact Int.add_nonneg canCount.1 canCount.2
  | fraction => exact canCount.2
  | longest lengths | shortest lengths => exact canCount lengths
  | most => exact canCount
  | least positive => exact Int.le_of_lt positive

/-- Only a constraint on digits asks for a number of all digits, and it is the sum of both. -/
theorem AsksFor.exists_digits_of_total
    (asks : constraint.AsksFor boundsLength .totalDigits number) :
    ∃ integer fraction, constraint = digits integer fraction ∧
      number = integer.toInt + fraction.toInt := by
  cases asks
  exact ⟨_, _, rfl, rfl⟩

/-- Only a constraint on digits asks for a number of digits behind the point. -/
theorem AsksFor.exists_digits_of_fraction
    (asks : constraint.AsksFor boundsLength .fractionDigits number) :
    ∃ integer fraction, constraint = digits integer fraction ∧ number = fraction.toInt := by
  cases asks
  exact ⟨_, _, rfl, rfl⟩

variable {constraints : List Constraint}

/-- A facet that counts has the literal of a number that one of the constraints asks for. -/
theorem exists_asksFor_of_mem_flatMap
    (given : restriction ∈ constraints.flatMap (facets boundsLength))
    (counts : restriction.facet ∈ Facet.counts) :
    ∃ constraint ∈ constraints, ∃ number,
      constraint.AsksFor boundsLength restriction.facet number ∧
      restriction.number? = some number := by
  obtain ⟨constraint, listed, given⟩ := List.mem_flatMap.mp given
  exact ⟨constraint, listed, exists_asksFor_of_mem_facets given counts⟩

/-- What one of the constraints asks for is among the facets of all. -/
theorem AsksFor.mem_flatMap (asks : constraint.AsksFor boundsLength facet number)
    (listed : constraint ∈ constraints) :
    ⟨facet, Integer.text number⟩ ∈ constraints.flatMap (facets boundsLength) :=
  List.mem_flatMap.mpr ⟨constraint, listed, asks.mem_facets.1⟩

/-- If the facets carry counts, no attribute behind them is negative. -/
theorem canCount_of_carryCounts
    (carry : Restriction.CarryCounts (constraints.flatMap (facets boundsLength)))
    (listed : constraint ∈ constraints) : constraint.CanCount boundsLength := by
  have natural : ∀ {facet number}, constraint.AsksFor boundsLength facet number → 0 ≤ number := by
    intro facet number asks
    have isCount := carry.isCount _ (asks.mem_flatMap listed) asks.mem_facets.2
    exact (Restriction.isCount_iff (Restriction.number?_text facet number)).mp isCount
  cases constraint with
  | digits integer fraction =>
    obtain ⟨most, behind, isMost, isBehind, below⟩ := carry.fraction_le _
      (AsksFor.total.mem_flatMap listed) _ (AsksFor.fraction.mem_flatMap listed) rfl rfl
    rw [Restriction.number?_text] at isMost isBehind
    cases isMost
    cases isBehind
    have behindPoint := natural .fraction
    exact ⟨by omega, behindPoint⟩
  | max value => exact fun lengths => natural (.longest lengths)
  | min value => exact fun lengths => natural (.shortest lengths)
  | size most least => exact natural .most
  | _ => trivial

/-- Of constraints of different kinds the facets carry counts just if the attributes behind
them are not negative. -/
theorem carryCounts_flatMap_iff (increasing : (constraints.map kind).Pairwise (· < ·)) :
    Restriction.CarryCounts (constraints.flatMap (facets boundsLength)) ↔
      ∀ constraint ∈ constraints, constraint.CanCount boundsLength := by
  refine ⟨fun carry constraint => canCount_of_carryCounts carry, fun canCount => ?_⟩
  have distinct : (constraints.map kind).Nodup :=
    increasing.imp fun less same => Nat.ne_of_lt less (congrArg _ same)
  constructor
  · intro restriction given counts
    obtain ⟨constraint, listed, number, asks, isNumber⟩ :=
      exists_asksFor_of_mem_flatMap given counts
    exact (Restriction.isCount_iff isNumber).mpr (asks.nonneg (canCount constraint listed))
  · intro total given fraction alsoGiven isTotal isFraction
    obtain ⟨constraint, listed, most, asks, isMost⟩ :=
      exists_asksFor_of_mem_flatMap given (by simp [isTotal, Facet.counts])
    obtain ⟨other, alsoListed, behind, alsoAsks, isBehind⟩ :=
      exists_asksFor_of_mem_flatMap alsoGiven (by simp [isFraction, Facet.counts])
    rw [isTotal] at asks
    rw [isFraction] at alsoAsks
    obtain ⟨integer, places, rfl, rfl⟩ := asks.exists_digits_of_total
    obtain ⟨_, _, rfl, rfl⟩ := alsoAsks.exists_digits_of_fraction
    -- There is one constraint on digits, so both facets are of the same one.
    cases List.inj_on_of_nodup_map distinct listed alsoListed rfl
    refine ⟨_, _, isMost, isBehind, ?_⟩
    have integral := (canCount _ listed).1
    omega

end Constraint

namespace SchemaType

variable {base type : SchemaType} {declaration : Declaration} {settings : Settings}

/-- Restricting a type adds the facets of the constraints to those that it has. -/
theorem allRestrictions_restrict_append (base : SchemaType) (constraints : List Constraint)
    (policy : LengthPolicy) : (base.restrict constraints policy).allRestrictions =
      base.allRestrictions ++ base.project constraints policy := by
  have step := base.allRestrictions_narrowAll [⟨constraints, policy⟩]
  rwa [facetsAlong, facetsAlong, List.flatten_singleton] at step

/-- **Facets that count.** If decorating a type succeeds, every length and every number of
digits that is added has a decimal literal of the number that a constraint of the declaration
asks for. The facets carry counts if and only if no constraint on digits has a negative
attribute, no size a negative maximum, and where bounds limit the length, no upper or lower
bound is negative. -/
theorem carryCounts_decorate_iff (decorated : base.decorate declaration settings = .ok type) :
    ∃ constraints added, declaration.constraints settings.filter = .ok constraints ∧
      type.allRestrictions = base.allRestrictions ++ added ∧
      (∀ restriction ∈ added, restriction.facet ∈ Facet.counts →
        ∃ constraint ∈ constraints, ∃ number,
          constraint.AsksFor (settings.lengthPolicy.boundsLength base) restriction.facet number ∧
          restriction.number? = some number) ∧
      (Restriction.CarryCounts added ↔ ∀ constraint ∈ constraints,
        constraint.CanCount (settings.lengthPolicy.boundsLength base)) := by
  obtain ⟨constraints, collected, restricted⟩ := bind_eq_ok_iff.mp decorated
  have increasing := Declaration.increasing_of_constraints collected
  refine ⟨constraints, base.project constraints settings.lengthPolicy, collected, ?_, ?_, ?_⟩
  · rw [← Except.ok.inj restricted, allRestrictions_restrict_append]
  · exact fun restriction => Constraint.exists_asksFor_of_mem_flatMap
  · exact Constraint.carryCounts_flatMap_iff increasing

/-- A field for a weight that is kept as a text. -/
def weightField : Declaration where
  name := "weight"
  annotations := [
    { type := ConstraintKind.size.annotationType
      values := [("min", .int 1), ("max", .int 8)] },
    { type := ConstraintKind.max.annotationType, values := [("value", .int 12)] },
    { type := ConstraintKind.digits.annotationType
      values := [("integer", .int 3), ("fraction", .int 2)] }]

/-- The facets of that field carry counts. Its size and its bound both give a greatest length. -/
theorem carryCounts_weightField :
    ∃ type, (builtin .string).decorate weightField {} = .ok type ∧
      type.allRestrictions = [⟨.totalDigits, "5"⟩, ⟨.fractionDigits, "2"⟩, ⟨.maxLength, "12"⟩,
        ⟨.maxLength, "8"⟩, ⟨.minLength, "1"⟩] ∧
      Restriction.CarryCounts type.allRestrictions := by
  have decorated : (builtin .string).decorate weightField {} = .ok _ := rfl
  have carried : weightField.constraints ({} : Settings).filter =
      .ok [.digits 3 2, .max 12, .size 8 1] := rfl
  obtain ⟨constraints, added, collected, isAdded, -, carry_iff⟩ :=
    carryCounts_decorate_iff decorated
  obtain rfl := Except.ok.inj (collected.symm.trans carried)
  refine ⟨_, decorated, rfl, isAdded ▸ carry_iff.mpr ?_⟩
  have most : 0 ≤ (8 : Int32).toInt := by decide
  rw [List.forall_mem_cons, List.forall_mem_cons, List.forall_mem_singleton]
  exact ⟨⟨by decide, by decide⟩, fun _ => by decide, most⟩

/-- A field whose attributes are negative. -/
def debtField : Declaration where
  name := "debt"
  annotations := [
    { type := ConstraintKind.size.annotationType, values := [("max", .int (-1))] },
    { type := ConstraintKind.digits.annotationType
      values := [("integer", .int (-1)), ("fraction", .int 2)] }]

/-- A greatest length may come out negative, and more digits behind the point than in all. -/
theorem not_carryCounts_debtField :
    ∃ type, (builtin .string).decorate debtField {} = .ok type ∧
      type.allRestrictions =
        [⟨.totalDigits, "1"⟩, ⟨.fractionDigits, "2"⟩, ⟨.maxLength, "-1"⟩] ∧
      (Restriction.mk .totalDigits "1").number? = some 1 ∧
      (Restriction.mk .fractionDigits "2").number? = some 2 ∧
      ¬ (Restriction.mk .maxLength "-1").IsCount ∧
      ¬ Restriction.CarryCounts type.allRestrictions := by
  have negative : (Restriction.mk .maxLength "-1").number? = some (-1) := by decide
  have notCount : ¬ (Restriction.mk .maxLength "-1").IsCount := by
    rw [Restriction.isCount_iff negative]
    decide
  refine ⟨_, rfl, rfl, Restriction.number?_text _ 1, Restriction.number?_text _ 2, notCount, ?_⟩
  intro carry
  exact notCount (carry.isCount _ (.tail _ (.tail _ (.head _))) (by decide))

end SchemaType

end ConstraintFacets
