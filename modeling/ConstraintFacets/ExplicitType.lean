import ConstraintFacets.Declaration
import ConstraintFacets.SchemaType

/-! # Explicit types

An annotation on an accessor names its schema type. A package can name the schema
types of declared types for all accessors in it
(`ConstraintFacets.Declaration.explicitTypes`). The types of a package are loaded
once and then kept under the name of the package
(`ConstraintFacets.TypeCache.load`); loading that fails is tried again.
-/

namespace ConstraintFacets

/-- The class that stands for no class in the annotation for a schema type. -/
def unspecifiedType : String := "javax.xml.bind.annotation.XmlSchemaType.DEFAULT"

/-- The specified types of a package, by the names of the declared types that they
stand for. -/
abbrev ExplicitTypes := Keyed SpecifiedType

namespace Declaration

/-- The annotations for schema types on a package: the first one that stands
alone, then those in the first annotation that holds several. -/
def schemaTypeUses (package : Declaration) : List AnnotationUse :=
  (package.find? AnnotationName.schemaType).toList ++
    match (package.find? AnnotationName.schemaTypes).bind fun holder => holder.value? "value" with
    | some entries => entries.toList.filterMap AnnotationValue.nested?
    | none => []

/-- The declared type that an annotation on a package is about. -/
def adaptedType (package : Declaration) (use : AnnotationUse) : Except Error String :=
  match (use.value? "type").bind AnnotationValue.classLiteral? with
  | none => .error (.configuration (.typeMissing package.name))
  | some type =>
    if type = unspecifiedType then .error (.configuration (.typeMissing package.name))
    else if TypeName.isDeclared type then .ok type
    else .error (.configuration (.typeNotDeclared package.name type))

/-- Enters the types of annotations on a package, one after the other. The name of
a declared type is entered without its type arguments. -/
def enterTypes (package : Declaration) (types : ExplicitTypes) :
    List AnnotationUse → Except Error ExplicitTypes
  | [] => .ok types
  | use :: rest => do
    let type ← package.adaptedType use
    let specified ← SpecifiedType.ofUse use
    package.enterTypes (Keyed.insert types (TypeName.erase type) specified) rest

/-- The specified types of a package. -/
def explicitTypes (package : Declaration) : Except Error ExplicitTypes :=
  package.enterTypes [] package.schemaTypeUses

end Declaration

/-- The specified types of the packages that have been loaded, by the names of the
packages. -/
structure TypeCache where
  /-- The packages, in the order in which they were loaded. -/
  packages : Keyed ExplicitTypes := []

namespace TypeCache

/-- The number of packages that have been loaded. -/
def size (cache : TypeCache) : Nat :=
  cache.packages.length

/-- Whether no package has been loaded. -/
def isEmpty (cache : TypeCache) : Bool :=
  cache.packages.isEmpty

/-- The specified types of a package, with the cache afterwards. Only types that
could be loaded are kept. -/
def load (cache : TypeCache) (package : Declaration) :
    Except Error ExplicitTypes × TypeCache :=
  match Keyed.get? cache.packages package.name with
  | some types => (.ok types, cache)
  | none =>
    match package.explicitTypes with
    | .ok types => (.ok types, ⟨Keyed.insert cache.packages package.name types⟩)
    | .error error => (.error error, cache)

/-- The schema type that is specified for an accessor, with the cache afterwards.
Its own annotation counts first. Otherwise its type, or the type of its items, is
looked up among the types of the package, if it is a declared type. -/
def find (cache : TypeCache) (accessor : Declaration) (itemType : Option String)
    (package : Declaration) : Except Error (Option SchemaType) × TypeCache :=
  match accessor.find? AnnotationName.schemaType with
  | some use =>
    ((SpecifiedType.ofUse use).map fun type => some (.specified type), cache)
  | none =>
    match itemType.filter TypeName.isDeclared with
    | none => (.ok none, cache)
    | some type =>
      let (loaded, after) := cache.load package
      (loaded.map fun types =>
        (Keyed.get? types (TypeName.erase type)).map .specified, after)

end TypeCache

end ConstraintFacets
