import ConstraintFacets.Markup
import ConstraintFacets.SchemaType

/-! # Schema fragments

A simple type is written as a type definition with one restriction, which holds
all the facets along its chain of bases (`ConstraintFacets.SchemaType.fragment`).
A namespace without a conventional prefix is bound to a prefix for the target.
-/

namespace ConstraintFacets.SchemaType

/-- The prefix of a namespace that has no conventional one. -/
def targetPrefix : String := "tns"

/-- The name of a type as it is written in a fragment. -/
def reference (name : QName) : String :=
  if name.isUnqualified then name.localName
  else name.prefixed?.getD (targetPrefix ++ ":" ++ name.localName)

/-- The binding for the namespace of a type, unless it has none or that of XML
Schema, which is always bound. -/
def bindings (name : QName) : List (String × String) :=
  if name.isUnqualified ∨ name.uri = schemaNamespace then []
  else [("xmlns:" ++ (conventionalPrefix? name.uri).getD targetPrefix, name.uri)]

/-- The tag of a facet. -/
def facetTag (restriction : Restriction) : Tag :=
  .empty ("xs:" ++ restriction.facet.name) [("value", restriction.value)]

/-- The tags of the restriction of a type. -/
def restrictionTags (type : SchemaType) : List Tag :=
  let base := [("base", reference type.qualifiedName)]
  match type.allRestrictions with
  | [] => [.empty "xs:restriction" base]
  | facets => .opening "xs:restriction" base :: facets.map facetTag ++ [.closing "xs:restriction"]

/-- The tags of the definition of a type, with a name or without one. -/
def tags (type : SchemaType) (name : Option String) : List Tag :=
  .opening "xs:simpleType"
    (("xmlns:xs", schemaNamespace) :: bindings type.qualifiedName ++
      name.toList.map fun name => ("name", name)) ::
    type.restrictionTags ++ [.closing "xs:simpleType"]

/-- The definition of a type as text. Only simple types can be written. -/
def fragment (type : SchemaType) (name : Option String) : Except Error String :=
  if type.isSimple then .ok (String.ofList (Tag.document (type.tags name)))
  else .error (.type (.notSimple type.qualifiedName))

end ConstraintFacets.SchemaType
