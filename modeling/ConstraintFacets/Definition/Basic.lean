/-! # Type definitions

A type definition says which fields of a declared type are written in which way.
A simple type has at most a value; a complex type has a value, attributes and
elements, and the definitions that are nested in it.
-/

namespace ConstraintFacets

/-- A field or property that is written. -/
structure Accessor where
  /-- The name. -/
  name : String := ""
  /-- Only the identity of the object is written. -/
  idref : Bool := false
  /-- The items are written as a list between blanks. -/
  xmlList : Bool := false
  /-- The type is a collection or an array. -/
  collection : Bool := false
  /-- The type is binary data. -/
  binaryData : Bool := false
  /-- The type is a map. -/
  mapType : Bool := false
  /-- An adapter is attached. -/
  adapted : Bool := false
deriving DecidableEq

/-- The definition of a simple type. -/
structure SimpleType where
  /-- The name. -/
  name : String
  /-- The value, if there is one. -/
  value : Option Accessor := none
deriving DecidableEq

mutual

/-- The definition of a complex type. -/
structure ComplexType where
  /-- The name. -/
  name : String
  /-- The value, if there is one. -/
  value : Option Accessor := none
  /-- The attributes, in order. -/
  attributes : List Accessor := []
  /-- The elements, in order. -/
  elements : List Accessor := []
  /-- The definitions inside this one, in order. -/
  nestedTypes : List TypeDefinition := []

/-- The definition of a type. -/
inductive TypeDefinition where
  | simple (type : SimpleType)
  | complex (type : ComplexType)

end

namespace ComplexType

/-- A complex type with a value. -/
def withValue (type : ComplexType) (value : Accessor) : ComplexType :=
  { type with value := some value }

/-- A complex type with one more attribute. -/
def withAttribute (type : ComplexType) (accessor : Accessor) : ComplexType :=
  { type with attributes := type.attributes ++ [accessor] }

/-- A complex type with one more element. -/
def withElement (type : ComplexType) (element : Accessor) : ComplexType :=
  { type with elements := type.elements ++ [element] }

/-- A complex type with one more definition inside. -/
def withNested (type : ComplexType) (nested : TypeDefinition) : ComplexType :=
  { type with nestedTypes := type.nestedTypes ++ [nested] }

end ComplexType

/-- The name of a type. -/
def TypeDefinition.name : TypeDefinition → String
  | simple type => type.name
  | complex type => type.name

end ConstraintFacets
