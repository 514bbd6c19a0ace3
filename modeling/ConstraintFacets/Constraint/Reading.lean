import ConstraintFacets.Annotation.Basic
import ConstraintFacets.Constraint.Basic
import ConstraintFacets.Error
import ConstraintFacets.Text.Numeral

/-! # Reading a constraint from its annotation

The attributes of a standard annotation become the parameters of its constraint
(`ConstraintFacets.ConstraintKind.read`). Attributes are read in a fixed order,
and the first one that is unusable is reported.
-/

namespace ConstraintFacets

/-- What is wrong with an attribute, and with which one. -/
structure AttributeError where
  /-- The attribute. -/
  name : String
  /-- What is wrong with it. -/
  fault : AnnotationFault
deriving DecidableEq

namespace AnnotationUse

/-- The value of a mandatory attribute. -/
def mandatory (use : AnnotationUse) (name : String) :
    Except AttributeError AnnotationValue :=
  match use.value? name with
  | some value => .ok value
  | none => .error ⟨name, .missingAttribute⟩

/-- The word of a mandatory integer attribute. -/
def word (use : AnnotationUse) (name : String) : Except AttributeError Int64 := do
  match (← use.mandatory name).int? with
  | some value => .ok value
  | none => .error ⟨name, .notInteger⟩

/-- The value of a mandatory integer attribute that has to fit 32 bits. -/
def shortWord (use : AnnotationUse) (name : String) : Except AttributeError Int32 := do
  match Integer.toInt32? (← use.word name).toInt with
  | some value => .ok value
  | none => .error ⟨name, .integerOutOfRange⟩

/-- The value of an integer attribute that has to fit 32 bits, or its default. -/
def shortWordOr (use : AnnotationUse) (name : String) (default : Int32) :
    Except AttributeError Int32 :=
  match use.value? name with
  | some _ => use.shortWord name
  | none => .ok default

/-- The value of a Boolean attribute, or its default. -/
def flagOr (use : AnnotationUse) (name : String) (default : Bool) :
    Except AttributeError Bool :=
  match use.value? name with
  | some value =>
    match value.bool? with
    | some flag => .ok flag
    | none => .error ⟨name, .notBoolean⟩
  | none => .ok default

/-- The text of a mandatory string attribute. -/
def text (use : AnnotationUse) (name : String) : Except AttributeError String := do
  match (← use.mandatory name).string? with
  | some value => .ok value
  | none => .error ⟨name, .notString⟩

/-- The text of a mandatory attribute that has to be a decimal literal. -/
def decimal (use : AnnotationUse) (name : String) : Except AttributeError String := do
  let literal ← use.text name
  if DecimalLiteral.isLiteral literal.toList then .ok literal
  else .error ⟨name, .notDecimal⟩

end AnnotationUse

/-- The greatest size when none is given. -/
def defaultMaxSize : Int32 := Int32.maxValue

/-- The least size when none is given. -/
def defaultMinSize : Int32 := 0

/-- The constraint of a kind with the parameters of an annotation. -/
def ConstraintKind.read (kind : ConstraintKind) (use : AnnotationUse) :
    Except AttributeError Constraint :=
  match kind with
  | null => .ok .null
  | notNull => .ok .notNull
  | isFalse => .ok .isFalse
  | isTrue => .ok .isTrue
  | decimalMax => do
    let value ← use.decimal "value"
    let inclusive ← use.flagOr "inclusive" true
    .ok (.decimalMax value inclusive)
  | decimalMin => do
    let value ← use.decimal "value"
    let inclusive ← use.flagOr "inclusive" true
    .ok (.decimalMin value inclusive)
  | digits => do
    let integer ← use.shortWord "integer"
    let fraction ← use.shortWord "fraction"
    .ok (.digits integer fraction)
  | future => .ok .future
  | max => do
    let value ← use.word "value"
    .ok (.max value)
  | min => do
    let value ← use.word "value"
    .ok (.min value)
  | past => .ok .past
  | regexp => do
    let pattern ← use.text "regexp"
    .ok (.regexp pattern)
  | size => do
    let most ← use.shortWordOr "max" defaultMaxSize
    let least ← use.shortWordOr "min" defaultMinSize
    .ok (.size most least)

end ConstraintFacets
