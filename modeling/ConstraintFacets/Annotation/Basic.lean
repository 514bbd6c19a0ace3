import ConstraintFacets.Keyed
import ConstraintFacets.TypeName

/-! # Annotations

An annotation is used on a declaration: the use has a type, values for some of its
attributes, and sometimes the declaration of its type, which may be annotated
itself. Values are literals of the annotation language, arrays of values, or
nested annotations.
-/

namespace ConstraintFacets

mutual

/-- A value of an attribute. -/
inductive AnnotationValue where
  | bool (value : Bool)
  | int (value : Int64)
  | string (value : String)
  | classLiteral (name : String)
  | enumConstant (name : String)
  | array (items : List AnnotationValue)
  | nested (use : AnnotationUse)

/-- The use of an annotation on a declaration. -/
structure AnnotationUse where
  /-- The qualified name of the annotation type. -/
  type : String
  /-- The attributes that are given, in order of first entry. -/
  values : List (String × AnnotationValue) := []
  /-- The declaration of the annotation type, when it is known. -/
  definition : Option AnnotationType := none

/-- The declaration of an annotation type. -/
structure AnnotationType where
  /-- The qualified name of the type. -/
  qualifiedName : String
  /-- The annotations on the type. -/
  annotations : List AnnotationUse := []

end

namespace AnnotationValue

/-- The truth value of a Boolean literal. -/
def bool? : AnnotationValue → Option Bool
  | bool value => some value
  | _ => none

/-- The word of an integer literal. -/
def int? : AnnotationValue → Option Int64
  | int value => some value
  | _ => none

/-- The text of a string literal. -/
def string? : AnnotationValue → Option String
  | string value => some value
  | _ => none

/-- The name in a class literal. -/
def classLiteral? : AnnotationValue → Option String
  | classLiteral name => some name
  | _ => none

/-- The annotation that a value is. -/
def nested? : AnnotationValue → Option AnnotationUse
  | nested use => some use
  | _ => none

/-- The items of an array. A single value stands for an array of that value. -/
def toList : AnnotationValue → List AnnotationValue
  | array items => items
  | value => [value]

end AnnotationValue

/-- The package of an annotation type. -/
def AnnotationType.package? (type : AnnotationType) : Option String :=
  TypeName.package? type.qualifiedName

namespace AnnotationUse

/-- The value of an attribute, if it is given. -/
def value? (use : AnnotationUse) (name : String) : Option AnnotationValue :=
  Keyed.get? use.values name

/-- An annotation with a value for an attribute. -/
def withValue (use : AnnotationUse) (name : String) (value : AnnotationValue) :
    AnnotationUse :=
  { use with values := Keyed.insert use.values name value }

/-- A value that is given to an attribute is found there, and the other attributes keep theirs. -/
theorem value?_withValue (use : AnnotationUse) (key name : String) (value : AnnotationValue) :
    (use.withValue key value).value? name = if name = key then some value else use.value? name :=
  Keyed.get?_insert use.values key name value

/-- An annotation with the declaration of its type. -/
def withDefinition (use : AnnotationUse) (definition : AnnotationType) : AnnotationUse :=
  { use with definition := some definition }

/-- The package of an annotation: that of its declared type if the declaration is
known, else the one its type name tells. -/
def package? (use : AnnotationUse) : Option String :=
  match use.definition with
  | some definition => definition.package?
  | none => TypeName.package? use.type

end AnnotationUse

end ConstraintFacets
