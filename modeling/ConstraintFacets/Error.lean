import ConstraintFacets.QName

/-! # Errors

What can go wrong, by cause. The findings about type definitions are not errors
of this kind; they are collected in a report. Every cause has one wording
(`ConstraintFacets.Error.message`). A host that reads declarations by its own
means can report causes of its own, in its own words. Besides the standard
constraints three annotation types mean something here, and are named in errors
(`ConstraintFacets.AnnotationName`).
-/

namespace ConstraintFacets

namespace AnnotationName

/-- The annotation that marks a declaration as ignored. -/
def ignore : String := "com.webcohesion.enunciate.metadata.Ignore"

/-- The annotation that names the schema type of an accessor, or at a package
that of a declared type. -/
def schemaType : String := "javax.xml.bind.annotation.XmlSchemaType"

/-- The annotation that holds several annotations for schema types. -/
def schemaTypes : String := "javax.xml.bind.annotation.XmlSchemaTypes"

end AnnotationName

/-- What is wrong with an attribute of an annotation. -/
inductive AnnotationFault where
  | missingAttribute
  | notInteger
  | integerOutOfRange
  | notBoolean
  | notString
  | notDecimal
  | other (words : String)
deriving DecidableEq

/-- The wording of a fault. -/
def AnnotationFault.message : AnnotationFault → String
  | missingAttribute => "missing mandatory attribute"
  | notInteger => "expected an integer"
  | integerOutOfRange => "integer out of range"
  | notBoolean => "expected a boolean"
  | notString => "expected a string"
  | notDecimal => "not a decimal number"
  | other words => words

/-- An annotation that cannot be turned into a constraint or a type. -/
structure AnnotationError where
  /-- What is wrong. -/
  fault : AnnotationFault
  /-- The type of the annotation. -/
  annotationType : Option String := none
  /-- The attribute that is missing or unusable. -/
  attributeName : Option String := none
  /-- The declaration that carries the annotation. -/
  declaration : Option String := none
deriving DecidableEq

/-- The fault with the place where it was found. An attribute is named only
together with its annotation. -/
def AnnotationError.message (error : AnnotationError) : String :=
  let place :=
    match error.annotationType, error.attributeName with
    | some type, some name => " (@" ++ type ++ "." ++ name ++ ")"
    | some type, none => " (@" ++ type ++ ")"
    | none, _ => ""
  let carrier :=
    match error.declaration with
    | some declaration => " on " ++ declaration
    | none => ""
  error.fault.message ++ place ++ carrier

/-- What is wrong with the types that a package specifies. -/
inductive ConfigurationFault where
  | typeMissing (package : String)
  | typeNotDeclared (package type : String)
  | other (words : String)
deriving DecidableEq

/-- The wording of a fault. -/
def ConfigurationFault.message : ConfigurationFault → String
  | typeMissing package =>
    package ++ ": a type must be specified in " ++ AnnotationName.schemaType ++
      " at the package-level."
  | typeNotDeclared package type =>
    package ++ ": only a declared type can be adapted.  Offending type: " ++ type
  | other words => words

/-- What is wrong with an XML type. -/
inductive TypeFault where
  | emptyRestriction (base : QName)
  | notSimple (type : QName)
  | unknown (name : String)
  | noBase (declaration : String)
  | other (words : String)
deriving DecidableEq

/-- The wording of a fault. -/
def TypeFault.message : TypeFault → String
  | emptyRestriction base => "a restriction of " ++ base.text ++ " needs at least one facet"
  | notSimple type => type.text ++ " is not a simple type and cannot be restricted"
  | unknown name => "unknown XML type: " ++ name
  | noBase declaration =>
    "no base type given and no explicit schema type found for " ++ declaration
  | other words => words

/-- What is wrong with a name. -/
inductive NameFault where
  | notDeclaredType (name : String)
  | notNCName (name : String)
  | other (words : String)
deriving DecidableEq

/-- The wording of a fault. -/
def NameFault.message : NameFault → String
  | notDeclaredType name => "Not a declared type: '" ++ name ++ "'"
  | notNCName name => "Invalid NCName: '" ++ name ++ "'"
  | other words => words

/-- What is wrong with a file. -/
inductive FileFault where
  | notFound
  | isDirectory
  | notDirectory
  | notText
  | other (words : String)
deriving DecidableEq

/-- The wording of a fault. -/
def FileFault.message : FileFault → String
  | notFound => "No such file or directory (os error 2)"
  | isDirectory => "Is a directory (os error 21)"
  | notDirectory => "Not a directory (os error 20)"
  | notText => "stream did not contain valid UTF-8"
  | other words => words

/-- Everything that can go wrong. -/
inductive Error where
  | configuration (fault : ConfigurationFault)
  | annotationUse (error : AnnotationError)
  | type (fault : TypeFault)
  | name (fault : NameFault)
  | file (fault : FileFault)
  | json
  | xml (words : String)
deriving DecidableEq

/-- The wording of an error. -/
def Error.message : Error → String
  | configuration fault => "configuration error: " ++ fault.message
  | annotationUse error => "annotation error: " ++ error.message
  | type fault => "type error: " ++ fault.message
  | name fault => "name error: " ++ fault.message
  | file fault => "I/O error: " ++ fault.message
  | json => "JSON error: not a document of the expected form"
  | xml words => "XML error: " ++ words

end ConstraintFacets
