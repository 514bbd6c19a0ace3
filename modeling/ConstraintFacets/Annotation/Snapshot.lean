import ConstraintFacets.Annotation.Basic
import ConstraintFacets.Json.Record

/-! # Annotations in JSON

A value is an object with its kind and its content, in either order, or an array
of the two. If the content comes first, it is held back until the kind is known.
An object may give the kind as a choice, an array only as a tag. An annotation is
a record of its type, its values and the declaration of its type; values and
declaration are left out when there are none.
-/

namespace ConstraintFacets

/-- The kinds of values of attributes. -/
inductive ValueKind where
  | bool
  | int
  | string
  | classLiteral
  | enumConstant
  | array
  | nested
deriving DecidableEq

namespace ValueKind

/-- The name of a kind. -/
def name : ValueKind → String
  | bool => "bool"
  | int => "int"
  | string => "string"
  | classLiteral => "class"
  | enumConstant => "enum"
  | array => "array"
  | nested => "annotation"

/-- All kinds. -/
def all : List ValueKind :=
  [bool, int, string, classLiteral, enumConstant, array, nested]

/-- The kind with a given name. -/
def ofName? (name : String) : Option ValueKind :=
  all.find? fun kind => kind.name = name

theorem ofName?_name (kind : ValueKind) : ofName? kind.name = some kind := by
  cases kind <;> decide

end ValueKind

/-- The object of a kind and a content. -/
def ValueKind.tagged (kind : ValueKind) (content : Json) : Json :=
  .record [("kind", .text kind.name), ("value", content)]

mutual

/-- The JSON form of a value. -/
def AnnotationValue.toJson : AnnotationValue → Json
  | .bool value => ValueKind.bool.tagged (.bool value)
  | .int value => ValueKind.int.tagged (.ofInt value.toInt)
  | .string value => ValueKind.string.tagged (.text value)
  | .classLiteral name => ValueKind.classLiteral.tagged (.text name)
  | .enumConstant name => ValueKind.enumConstant.tagged (.text name)
  | .array items => ValueKind.array.tagged (.array (AnnotationValue.toJsonList items))
  | .nested use => ValueKind.nested.tagged use.toJson

/-- The JSON forms of a list of values. -/
def AnnotationValue.toJsonList : List AnnotationValue → List Json
  | [] => []
  | value :: rest => value.toJson :: AnnotationValue.toJsonList rest

/-- The members for a table of values. -/
def AnnotationValue.toMembers : List (String × AnnotationValue) → List (Option String × Json)
  | [] => []
  | (name, value) :: rest => (some name, value.toJson) :: AnnotationValue.toMembers rest

/-- The JSON form of an annotation. -/
def AnnotationUse.toJson : AnnotationUse → Json
  | ⟨type, values, definition⟩ =>
    .object ((some "type", .text type) ::
      ((match values with
        | [] => []
        | _ :: _ => [(some "values", .object (AnnotationValue.toMembers values))]) ++
      AnnotationUse.definitionToMembers definition))

/-- The member for the declaration of an annotation type, if it is known. -/
def AnnotationUse.definitionToMembers : Option AnnotationType → List (Option String × Json)
  | none => []
  | some definition => [(some "definition", definition.toJson)]

/-- The JSON form of the declaration of an annotation type. -/
def AnnotationType.toJson : AnnotationType → Json
  | ⟨qualifiedName, annotations⟩ =>
    .record [("qualified_name", .text qualifiedName),
      ("annotations", .array (AnnotationUse.toJsonList annotations))]

/-- The JSON forms of a list of annotations. -/
def AnnotationUse.toJsonList : List AnnotationUse → List Json
  | [] => []
  | use :: rest => use.toJson :: AnnotationUse.toJsonList rest

end

/-- The kind of a value, with its content and the origin of the content: in an
object, content that comes before its kind is held back, and has to be sound for
that. -/
def ValueKind.split? (origin : Json.Origin) (room : Nat) :
    Json → Option (ValueKind × Json.Origin × Json)
  | .array [kind, content] => do
    let kind ← kind.tag? origin ValueKind.all ValueKind.name
    some (kind, origin, content)
  | .object members => do
    let fields ← (Json.object members).fields? ["kind", "value"]
    let content ← fields.lookup "value"
    let kind ← ValueKind.ofName? (← Json.choice? origin room (← fields.lookup "kind"))
    if fields.map Prod.fst = ["value", "kind"] ∧ origin = .inPlace then
      if content.isSound room then some (kind, .heldBack, content) else none
    else some (kind, origin, content)
  | _ => none

mutual

/-- Reads a value of an attribute. -/
def AnnotationValue.read? (origin : Json.Origin) : Nat → Json → Option AnnotationValue
  | 0, _ => none
  | room + 1, json => do
    let (kind, origin, content) ← ValueKind.split? origin room json
    match kind with
    | .bool => content.bool?.map .bool
    | .int => (content.int?.bind Integer.toInt64?).map .int
    | .string => content.text?.map .string
    | .classLiteral => content.text?.map .classLiteral
    | .enumConstant => content.text?.map .enumConstant
    | .array => (AnnotationValue.readItems? origin room content).map .array
    | .nested => (AnnotationUse.read? origin room content).map .nested

/-- Reads the items of an array of values. -/
def AnnotationValue.readItems? (origin : Json.Origin) : Nat → Json → Option (List AnnotationValue)
  | room + 1, .array items => items.mapM (AnnotationValue.read? origin room)
  | _, _ => none

/-- Reads a table of values. A name that is given again keeps its place and takes the
new value. -/
def AnnotationValue.readTable? (origin : Json.Origin) :
    Nat → Json → Option (List (String × AnnotationValue))
  | room + 1, .object members =>
    (members.mapM fun (member : Option String × Json) => do
      let name ← member.1
      let value ← AnnotationValue.read? origin room member.2
      some (name, value)).map Keyed.ofList
  | _, _ => none

/-- Reads an annotation. -/
def AnnotationUse.read? (origin : Json.Origin) : Nat → Json → Option AnnotationUse
  | 0, _ => none
  | room + 1, json => do
    let fields ← json.fields? ["type", "values", "definition"]
    let type ← (← fields.lookup "type").text?
    let values ← Json.fieldOr fields "values" [] (AnnotationValue.readTable? origin room)
    let definition ← Json.fieldOr fields "definition" none
      (Json.optional? (AnnotationType.read? origin room))
    some { type, values, definition }

/-- Reads a list of annotations. -/
def AnnotationUse.readItems? (origin : Json.Origin) : Nat → Json → Option (List AnnotationUse)
  | room + 1, .array items => items.mapM (AnnotationUse.read? origin room)
  | _, _ => none

/-- Reads the declaration of an annotation type. -/
def AnnotationType.read? (origin : Json.Origin) : Nat → Json → Option AnnotationType
  | 0, _ => none
  | room + 1, json => do
    let fields ← json.fields? ["qualified_name", "annotations"]
    let qualifiedName ← (← fields.lookup "qualified_name").text?
    let annotations ← Json.fieldOr fields "annotations" [] (AnnotationUse.readItems? origin room)
    some { qualifiedName, annotations }

end

/-- The value that a JSON document describes. -/
def AnnotationValue.ofJson? (json : Json) : Option AnnotationValue :=
  AnnotationValue.read? .inPlace Json.nestingLimit json

/-- The annotation that a JSON document describes. -/
def AnnotationUse.ofJson? (json : Json) : Option AnnotationUse :=
  AnnotationUse.read? .inPlace Json.nestingLimit json

/-- The declaration of an annotation type that a JSON document describes. -/
def AnnotationType.ofJson? (json : Json) : Option AnnotationType :=
  AnnotationType.read? .inPlace Json.nestingLimit json

end ConstraintFacets
