import ConstraintFacets.Facet
import ConstraintFacets.QName

/-! # Built-in types

The types that XML Schema defines, and the reference to an attachment. Each has
a name (`ConstraintFacets.BuiltinType.qualifiedName`) and a fixed set of facets that it
admits (`ConstraintFacets.BuiltinType.facets`).
-/

namespace ConstraintFacets

/-- A built-in type. -/
inductive BuiltinType where
  | string | normalizedString | token | base64Binary | hexBinary
  | integer | positiveInteger | negativeInteger | nonPositiveInteger | nonNegativeInteger
  | long | unsignedLong | int | unsignedInt | short | unsignedShort | byte | unsignedByte
  | decimal | float | double | boolean
  | duration | dateTime | date | time | gYear | gYearMonth | gMonth | gMonthDay | gDay
  | name | qname | ncname | anyURI | anySimpleType | anyType | language
  | id | idref | idrefs | entity | entities | notationName | nmtoken | nmtokens
  | attachmentRef
deriving DecidableEq

namespace BuiltinType

/-- All built-in types, in their order. -/
def all : List BuiltinType :=
  [string, normalizedString, token, base64Binary, hexBinary,
   integer, positiveInteger, negativeInteger, nonPositiveInteger, nonNegativeInteger,
   long, unsignedLong, int, unsignedInt, short, unsignedShort, byte, unsignedByte,
   decimal, float, double, boolean,
   duration, dateTime, date, time, gYear, gYearMonth, gMonth, gMonthDay, gDay,
   name, qname, ncname, anyURI, anySimpleType, anyType, language,
   id, idref, idrefs, entity, entities, notationName, nmtoken, nmtokens,
   attachmentRef]

/-- The local name of a type. -/
def localName : BuiltinType → String
  | string => "string"
  | normalizedString => "normalizedString"
  | token => "token"
  | base64Binary => "base64Binary"
  | hexBinary => "hexBinary"
  | integer => "integer"
  | positiveInteger => "positiveInteger"
  | negativeInteger => "negativeInteger"
  | nonPositiveInteger => "nonPositiveInteger"
  | nonNegativeInteger => "nonNegativeInteger"
  | long => "long"
  | unsignedLong => "unsignedLong"
  | int => "int"
  | unsignedInt => "unsignedInt"
  | short => "short"
  | unsignedShort => "unsignedShort"
  | byte => "byte"
  | unsignedByte => "unsignedByte"
  | decimal => "decimal"
  | float => "float"
  | double => "double"
  | boolean => "boolean"
  | duration => "duration"
  | dateTime => "dateTime"
  | date => "date"
  | time => "time"
  | gYear => "gYear"
  | gYearMonth => "gYearMonth"
  | gMonth => "gMonth"
  | gMonthDay => "gMonthDay"
  | gDay => "gDay"
  | name => "Name"
  | qname => "QName"
  | ncname => "NCName"
  | anyURI => "anyURI"
  | anySimpleType => "anySimpleType"
  | anyType => "anyType"
  | language => "language"
  | id => "ID"
  | idref => "IDREF"
  | idrefs => "IDREFS"
  | entity => "ENTITY"
  | entities => "ENTITIES"
  | notationName => "NOTATION"
  | nmtoken => "NMTOKEN"
  | nmtokens => "NMTOKENS"
  | attachmentRef => "swaRef"

/-- The namespace of a type. -/
def uri : BuiltinType → String
  | attachmentRef => attachmentNamespace
  | _ => schemaNamespace

/-- The qualified name of a type. -/
def qualifiedName (type : BuiltinType) : QName :=
  ⟨type.uri, type.localName⟩

/-- Whether a type is simple; all are but the type of everything. -/
def isSimple (type : BuiltinType) : Bool :=
  type ≠ anyType

/-- The facets that a type admits. -/
def facets : BuiltinType → List Facet
  | string | normalizedString | token | base64Binary | hexBinary | name | qname | ncname
  | anyURI | language | id | idref | idrefs | entity | entities | notationName | nmtoken
  | nmtokens => Facet.ofLengths
  | integer | positiveInteger | negativeInteger | nonPositiveInteger | nonNegativeInteger
  | long | unsignedLong | int | unsignedInt | short | unsignedShort | byte | unsignedByte
  | decimal => Facet.ofDecimals
  | float | double | duration | dateTime | date | time | gYear | gYearMonth | gMonth
  | gMonthDay | gDay => Facet.ofOrder
  | boolean => Facet.ofTruthValues
  | anySimpleType | anyType | attachmentRef => []

/-- Whether a type admits a facet. -/
def admits (type : BuiltinType) (facet : Facet) : Bool :=
  type.facets.contains facet

/-- Whether a type is the type of strings or a single name or token that narrows
it. -/
def isStringLike : BuiltinType → Bool
  | string | normalizedString | token | language | name | ncname | id | idref | entity
  | nmtoken => true
  | _ => false

/-- The built-in type with a qualified name. -/
def ofQName? (name : QName) : Option BuiltinType :=
  all.find? fun type => type.uri = name.uri && type.localName = name.localName

/-- What stands behind the last colon of a text, or the whole text if it has no
colon. -/
def afterLastColon (text : List Char) : List Char :=
  (text.reverse.takeWhile (· != ':')).reverse

/-- The built-in type with a local name. A prefix before the name is passed over,
whatever it is. -/
def ofName? (name : String) : Option BuiltinType :=
  let base := String.ofList (afterLastColon name.toList)
  all.find? fun type => type.localName = base

/-- Every built-in type is listed. -/
theorem mem_all (type : BuiltinType) : type ∈ all := by
  cases type <;> decide

end BuiltinType

end ConstraintFacets
