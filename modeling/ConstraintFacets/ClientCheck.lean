import ConstraintFacets.Checker

/-! # What the Objective-C client cannot represent

The client code that is generated for Objective-C keeps only the identities of
referenced objects, does not take lists apart, and has no form for collections of
binary data as attributes or values and for maps without an adapter. The checker
for it (`ConstraintFacets.clientChecker`) finds the accessors this concerns.
-/

namespace ConstraintFacets

/-- The finding about references by identity. -/
def idrefWarning : String :=
  "The Objective-C client code doesn't support strict IDREF object references, so only " ++
  "the IDs of these objects will be (de)serialized from Objective-C. This may cause " ++
  "confusion to Objective-C consumers."

/-- The finding about lists between blanks. -/
def listWarning : String :=
  "The Objective-C client code won't serialize xml lists as an array, instead passing " ++
  "the list as a string that will need to be parsed. This may cause confusion to " ++
  "Objective-C consumers."

/-- The finding about collections of binary data. -/
def binaryCollectionError : String :=
  "The Objective-C client code doesn't support a collection of items that are binary " ++
  "data. You'll have to define separate accessors for each item or disable the " ++
  "Objective-C module."

/-- The finding about maps without an adapter. -/
def mapError : String :=
  "The Objective-C client doesn't have a built-in way of serializing a Map. So you're " ++
  "going to have to use @XmlJavaTypeAdapter to supply your own adapter for the Map, or " ++
  "disable the Objective-C module."

namespace Accessor

/-- How an accessor of a type is named in a finding. -/
def subject (accessor : Accessor) (owner : String) : String :=
  owner ++ "." ++ accessor.name

/-- The finding about a reference by identity, if an accessor is one. -/
def checkIdref (accessor : Accessor) (owner : String) : Report :=
  if accessor.idref then ⟨[⟨.warning, accessor.subject owner, idrefWarning⟩]⟩ else {}

/-- The finding about a list between blanks, if an accessor is one. -/
def checkList (accessor : Accessor) (owner : String) : Report :=
  if accessor.xmlList then ⟨[⟨.warning, accessor.subject owner, listWarning⟩]⟩ else {}

/-- The findings about an attribute or the value of a complex type. -/
def checkAttribute (accessor : Accessor) (owner : String) : Report :=
  accessor.checkIdref owner ++ accessor.checkList owner ++
    if accessor.collection && accessor.binaryData then
      ⟨[⟨.error, accessor.subject owner, binaryCollectionError⟩]⟩
    else {}

/-- The findings about an element of a complex type. -/
def checkElement (accessor : Accessor) (owner : String) : Report :=
  accessor.checkIdref owner ++ accessor.checkList owner ++
    if accessor.mapType && !accessor.adapted then
      ⟨[⟨.error, accessor.subject owner, mapError⟩]⟩
    else {}

end Accessor

/-- The findings about a simple type: only a reference by identity is one. -/
def SimpleType.check (type : SimpleType) : Report :=
  Report.concat (type.value.toList.map fun value => value.checkIdref type.name)

/-- The findings about a complex type: its attributes first, then its value, then
its elements. -/
def ComplexType.check (type : ComplexType) : Report :=
  Report.concat ((type.attributes ++ type.value.toList).map fun accessor =>
      accessor.checkAttribute type.name) ++
    Report.concat (type.elements.map fun element => element.checkElement type.name)

/-- The checker for the Objective-C client. -/
def clientChecker : Checker where
  simple := SimpleType.check
  complex := ComplexType.check

end ConstraintFacets
