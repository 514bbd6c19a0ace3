/-! # Qualified names

XML types are identified by a namespace and a local name. An empty namespace
stands for no namespace. Two namespaces have a conventional prefix; a name in
one of them also has a prefixed form (`ConstraintFacets.QName.prefixed?`).
-/

namespace ConstraintFacets

/-- A name in a namespace. -/
structure QName where
  /-- The namespace; empty if there is none. -/
  uri : String
  /-- The name inside the namespace. -/
  localName : String
deriving DecidableEq

/-- The namespace of XML Schema. -/
def schemaNamespace : String := "http://www.w3.org/2001/XMLSchema"

/-- The namespace of the attachment profile. -/
def attachmentNamespace : String := "http://ws-i.org/profiles/basic/1.1/xsd"

/-- The conventional prefix of a namespace. -/
def conventionalPrefix? (uri : String) : Option String :=
  if uri = schemaNamespace then some "xs"
  else if uri = attachmentNamespace then some "swa"
  else none

namespace QName

/-- A name in the namespace of XML Schema. -/
def schema (localName : String) : QName :=
  ⟨schemaNamespace, localName⟩

/-- Whether a name has no namespace. -/
def isUnqualified (name : QName) : Bool :=
  name.uri.isEmpty

/-- The local name behind the conventional prefix of its namespace, if the
namespace has one. -/
def prefixed? (name : QName) : Option String :=
  (conventionalPrefix? name.uri).map fun short => short ++ ":" ++ name.localName

/-- A name in full, with its namespace in braces unless it has none. -/
def text (name : QName) : String :=
  if name.isUnqualified then name.localName
  else "\x7b" ++ name.uri ++ "\x7d" ++ name.localName

/-- The order of names: by namespace, then by local name, each by code points. -/
def precedes (first second : QName) : Bool :=
  first.uri < second.uri ||
    (first.uri = second.uri && first.localName ≤ second.localName)

end QName

end ConstraintFacets
