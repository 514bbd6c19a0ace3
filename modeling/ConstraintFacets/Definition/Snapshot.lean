import ConstraintFacets.Definition.Basic
import ConstraintFacets.Json.Record

/-! # Type definitions in JSON

A definition is an object with its kind somewhere among the fields of the type, or
an array with the kind first and the fields in order. Since the kind may come
last, every definition is held back as a whole. Inside what is held back, the
place of a kind in the list of kinds serves for its name.
-/

namespace ConstraintFacets

/-- The kinds of type definitions. -/
inductive DefinitionKind where
  | simple
  | complex
deriving DecidableEq

namespace DefinitionKind

/-- The name of a kind. -/
def name : DefinitionKind → String
  | simple => "simple"
  | complex => "complex"

/-- All kinds, in their order. -/
def all : List DefinitionKind :=
  [simple, complex]

/-- Reads a kind. -/
def read? (origin : Json.Origin) (json : Json) : Option DefinitionKind :=
  json.tag? origin all name

end DefinitionKind

namespace Accessor

/-- The JSON form of an accessor. -/
def toJson (accessor : Accessor) : Json :=
  .record
    [("name", .text accessor.name), ("xml_idref", .bool accessor.idref),
     ("xml_list", .bool accessor.xmlList), ("collection", .bool accessor.collection),
     ("binary_data", .bool accessor.binaryData), ("map_type", .bool accessor.mapType),
     ("adapted", .bool accessor.adapted)]

/-- Reads an accessor. -/
def read? : Nat → Json → Option Accessor
  | 0, _ => none
  | _ + 1, json => do
    let fields ← json.fields?
      ["name", "xml_idref", "xml_list", "collection", "binary_data", "map_type", "adapted"]
    let name ← Json.fieldOr fields "name" "" Json.text?
    let idref ← Json.fieldOr fields "xml_idref" false Json.bool?
    let xmlList ← Json.fieldOr fields "xml_list" false Json.bool?
    let collection ← Json.fieldOr fields "collection" false Json.bool?
    let binaryData ← Json.fieldOr fields "binary_data" false Json.bool?
    let mapType ← Json.fieldOr fields "map_type" false Json.bool?
    let adapted ← Json.fieldOr fields "adapted" false Json.bool?
    some { name, idref, xmlList, collection, binaryData, mapType, adapted }

/-- The JSON form of an accessor that may be absent. -/
def optionToJson : Option Accessor → Json
  | some accessor => accessor.toJson
  | none => .null

end Accessor

mutual

/-- The JSON form of a definition. -/
def TypeDefinition.toJson : TypeDefinition → Json
  | .simple ⟨name, value⟩ =>
    .record [("kind", .text DefinitionKind.simple.name), ("name", .text name),
      ("value", Accessor.optionToJson value)]
  | .complex ⟨name, value, attributes, elements, nestedTypes⟩ =>
    .record [("kind", .text DefinitionKind.complex.name), ("name", .text name),
      ("value", Accessor.optionToJson value),
      ("attributes", .array (attributes.map Accessor.toJson)),
      ("elements", .array (elements.map Accessor.toJson)),
      ("nested_types", .array (TypeDefinition.toJsonList nestedTypes))]

/-- The JSON forms of a list of definitions. -/
def TypeDefinition.toJsonList : List TypeDefinition → List Json
  | [] => []
  | definition :: rest => definition.toJson :: TypeDefinition.toJsonList rest

end

/-- Takes the kind out of a definition and leaves the fields of the type. -/
def TypeDefinition.splitKind? : Json → Option (Json × Json)
  | .array (kind :: fields) => some (kind, .array fields)
  | .object members =>
    match members.partition fun member => member.1 = some "kind" with
    | ([(_, kind)], fields) => some (kind, .object fields)
    | _ => none
  | _ => none

/-- Reads the fields of a simple type. -/
def SimpleType.read? (room : Nat) (json : Json) : Option SimpleType := do
  let fields ← json.fields? ["name", "value"]
  let name ← (← fields.lookup "name").text?
  let value ← Json.fieldOr fields "value" none (Json.optional? (Accessor.read? room))
  some { name, value }

/-- Reads the fields of a complex type, given how the definitions inside it are read. -/
def ComplexType.read? (nested? : Json → Option (List TypeDefinition)) (room : Nat)
    (json : Json) : Option ComplexType := do
  let fields ← json.fields? ["name", "value", "attributes", "elements", "nested_types"]
  let name ← (← fields.lookup "name").text?
  let value ← Json.fieldOr fields "value" none (Json.optional? (Accessor.read? room))
  let attributes ← Json.fieldOr fields "attributes" [] (Json.listOf? Accessor.read? room)
  let elements ← Json.fieldOr fields "elements" [] (Json.listOf? Accessor.read? room)
  let nestedTypes ← Json.fieldOr fields "nested_types" [] nested?
  some { name, value, attributes, elements, nestedTypes }

mutual

/-- Reads a definition. -/
def TypeDefinition.readFrom? (origin : Json.Origin) : Nat → Json → Option TypeDefinition
  | 0, _ => none
  | room + 1, json => do
    let (kind, rest) ← TypeDefinition.splitKind? json
    match ← DefinitionKind.read? origin kind with
    | .simple => (SimpleType.read? room rest).map .simple
    | .complex => (ComplexType.read? (TypeDefinition.readNested? room) room rest).map .complex

/-- Reads the definitions inside a definition, which are held back with it. -/
def TypeDefinition.readNested? : Nat → Json → Option (List TypeDefinition)
  | room + 1, .array items => items.mapM (TypeDefinition.readFrom? .heldBack room)
  | _, _ => none

end

/-- Reads a definition where it stands: it has to be sound as a whole. -/
def TypeDefinition.read? (room : Nat) (json : Json) : Option TypeDefinition :=
  if json.isSound room then TypeDefinition.readFrom? .inPlace room json else none

/-- The definition that a JSON document describes. -/
def TypeDefinition.ofJson? (json : Json) : Option TypeDefinition :=
  TypeDefinition.read? Json.nestingLimit json

/-- The list of definitions that a JSON document describes. -/
def TypeDefinition.listOfJson? (json : Json) : Option (List TypeDefinition) :=
  Json.listOf? TypeDefinition.read? Json.nestingLimit json

end ConstraintFacets
