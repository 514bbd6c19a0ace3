import ConstraintFacets.Annotation.Snapshot

/-! # Declarations

A declaration is a class, a field, a property or a package with its annotations.
Whatever else a host knows about it is its enclosing package and the block tags
of its doc comment. The declaration of an annotation type can be seen as a
declaration too (`ConstraintFacets.AnnotationType.toDeclaration`).

In JSON a declaration is a record of its name, its package, its annotations and its
block tags. A package that is not known and an empty list of block tags are left out.
-/

namespace ConstraintFacets

/-- An annotated declaration. -/
structure Declaration where
  /-- The name; qualified for packages and annotation types. -/
  name : String
  /-- The enclosing package, if it is known. -/
  package : Option String := none
  /-- The annotations, in order. -/
  annotations : List AnnotationUse := []
  /-- The block tags of the doc comment, without their marks. -/
  docTags : List String := []

/-- The declaration of an annotation type, seen as a declaration. -/
def AnnotationType.toDeclaration (type : AnnotationType) : Declaration where
  name := type.qualifiedName
  package := type.package?
  annotations := type.annotations

namespace Declaration

/-- A package, which is its own enclosing package. -/
def ofPackage (name : String) : Declaration where
  name := name
  package := some name

/-- A declaration in a package. -/
def inPackage (declaration : Declaration) (package : String) : Declaration :=
  { declaration with package := some package }

/-- A declaration with one more annotation, behind the others. -/
def withUse (declaration : Declaration) (use : AnnotationUse) : Declaration :=
  { declaration with annotations := declaration.annotations ++ [use] }

/-- A declaration with one more block tag, behind the others. -/
def withDocTag (declaration : Declaration) (tag : String) : Declaration :=
  { declaration with docTags := declaration.docTags ++ [tag] }

/-- The first annotation of a type. -/
def find? (declaration : Declaration) (type : String) : Option AnnotationUse :=
  declaration.annotations.find? fun use => use.type = type

/-- An annotation is the first one of a type on a declaration. -/
def IsFirst (declaration : Declaration) (type : String) (use : AnnotationUse) : Prop :=
  (∃ before after, declaration.annotations = before ++ use :: after ∧
    ∀ earlier ∈ before, earlier.type ≠ type) ∧ use.type = type

/-- An annotation is found just if it is the first one of its type. -/
theorem find?_eq_some_iff {declaration : Declaration} {type : String} {use : AnnotationUse} :
    declaration.find? type = some use ↔ declaration.IsFirst type use := by
  unfold find? IsFirst
  rw [List.find?_eq_some_iff_append, decide_eq_true_eq, and_comm]
  simp only [Bool.not_eq_true', decide_eq_false_iff_not, ne_eq]

/-- No annotation is found just if there is no first one, and so none, of the type. -/
theorem find?_eq_none_iff {declaration : Declaration} {type : String} :
    declaration.find? type = none ↔ ∀ use, ¬ declaration.IsFirst type use := by
  simp only [Option.eq_none_iff_forall_ne_some, ne_eq, find?_eq_some_iff]

/-- If an annotation takes the place of another one of the same type, at most it is found
instead of that one. -/
theorem find?_replace {declaration : Declaration} {before after : List AnnotationUse}
    {use other : AnnotationUse} (carried : declaration.annotations = before ++ use :: after)
    (sameType : other.type = use.type) (type : String) :
    { declaration with annotations := before ++ other :: after }.find? type =
        declaration.find? type ∨
      declaration.find? type = some use ∧
        { declaration with annotations := before ++ other :: after }.find? type = some other := by
  simp only [find?, carried, List.find?_append, List.find?_cons, sameType]
  cases before.find? fun use => use.type = type with
  | some earlier => exact .inl rfl
  | none =>
    by_cases isType : use.type = type
    · exact .inr ⟨by simp [isType], by simp [isType]⟩
    · exact .inl (by simp [isType])

/-- Whether the doc comment has a block tag. -/
def hasDocTag (declaration : Declaration) (tag : String) : Bool :=
  declaration.docTags.contains tag

/-- The block tag that marks a declaration as ignored. -/
def ignoreTag : String := "ignore"

/-- Whether a declaration is marked to be left out of what is generated. -/
def isIgnored (declaration : Declaration) : Bool :=
  declaration.hasDocTag ignoreTag || (declaration.find? AnnotationName.ignore).isSome

/-- The JSON form of a declaration. -/
def toJson (declaration : Declaration) : Json :=
  .record ([("name", .text declaration.name)] ++
    (match declaration.package with
      | some package => [("package", .text package)]
      | none => []) ++
    [("annotations", .array (AnnotationUse.toJsonList declaration.annotations))] ++
    (match declaration.docTags with
      | [] => []
      | _ :: _ => [("doc_tags", .array (declaration.docTags.map .text))]))

/-- Reads a declaration. -/
def read? : Nat → Json → Option Declaration
  | 0, _ => none
  | room + 1, json => do
    let fields ← json.fields? ["name", "package", "annotations", "doc_tags"]
    let name ← (← fields.lookup "name").text?
    let package ← Json.fieldOr fields "package" none (Json.optional? Json.text?)
    let annotations ← Json.fieldOr fields "annotations" []
      (Json.listOf? (AnnotationUse.read? .inPlace) room)
    let docTags ← Json.fieldOr fields "doc_tags" [] (Json.listOf? (fun _ => Json.text?) room)
    some { name, package, annotations, docTags }

/-- The declaration that a JSON document describes. -/
def ofJson? (json : Json) : Option Declaration :=
  read? Json.nestingLimit json

end Declaration

end ConstraintFacets
